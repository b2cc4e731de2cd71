import Pkix.Lib.PairedWalks
import Pkix.Path.ConcreteCodec
import Pkix.Path.WalkTracks

/-! What a policy asks of a chain beyond the walk that every policy shares: a chain is accepted
exactly when it meets the policy's own requirements and that walk succeeds. -/

namespace Pkix.Path

/-- The policies start the policy processing from one state and end it in one way. -/
structure SamePolicyInputs (a b : ValidationPolicy) : Prop where
  explicitPolicy : a.initialExplicitPolicy = b.initialExplicitPolicy
  anyPolicyInhibit : a.initialAnyPolicyInhibit = b.initialAnyPolicyInhibit
  mappingInhibit : a.initialPolicyMappingInhibit = b.initialPolicyMappingInhibit
  policySet : a.initialPolicySet = b.initialPolicySet

/-- What the first extension with the OID holds, `none` where there is none. Content that does
not decode is no content at all. -/
def ExtHolds {α : Type} (decode : Bytes → Option α) (cert : Certificate) (oid : ObjectIdentifier)
    (content : Option α) : Prop :=
  match findExtension cert oid with
  | none => content = none
  | some extension => ∃ value, decode extension.extnValue = some value ∧ content = some value

section Requirements

variable (der : DerCodec) (policy : ValidationPolicy)

/-- Asked of every certificate of the chain. -/
structure MeetsAnywhere (cert : Certificate) : Prop where
  algorithm : ∀ allowed, policy.allowedSignatureAlgs = some allowed →
    cert.signatureAlgorithm.oid ∈ allowed
  current : timeToUnixSecs cert.tbsCertificate.validity.notBefore ≤ policy.currentTimeUnix ∧
    policy.currentTimeUnix ≤ timeToUnixSecs cert.tbsCertificate.validity.notAfter
  lifetime : ∀ maxSecs, policy.maxValiditySecs = some maxSecs →
    timeToUnixSecs cert.tbsCertificate.validity.notAfter ≤
      timeToUnixSecs cert.tbsCertificate.validity.notBefore + maxSecs
  keySize : ∀ minBits bits, policy.minRsaKeyBits = some minBits →
    rsaPublicKeyBits der cert.tbsCertificate.subjectPublicKeyInfo = some bits → minBits ≤ bits

/-- Asked of every certificate but the leaf. -/
structure MeetsAsCa (cert : Certificate) : Prop where
  certSign : policy.enforceKeyUsage = true → ∃ usage,
    ExtHolds der.keyUsage cert oidKeyUsage usage ∧ usage.map (·.keyCertSign) ≠ some false
  crlSign : policy.requireCrlSignOnCas = true → ∃ usage,
    ExtHolds der.keyUsage cert oidKeyUsage usage ∧ usage.map (·.crlSign) ≠ some false

structure MeetsAsLeaf (cert : Certificate) : Prop where
  san : policy.requireSubjectAltName = true → ∃ san,
    ExtHolds der.subjectAltName cert oidSubjectAltName san ∧ san.getD [] ≠ []
  rfc822San : policy.requireSubjectAltName = true → policy.requireRfc822San = true → ∃ san,
    ExtHolds der.subjectAltName cert oidSubjectAltName san ∧ ∃ name ∈ san.getD [],
      isRfc822Name name = true
  eku : ∀ required, policy.requiredLeafEku = some required → ∃ ekus,
    ExtHolds der.extendedKeyUsage cert oidExtendedKeyUsage ekus ∧ required ⊆ ekus.getD []
  policyOids : ∀ required, policy.requiredLeafPolicyOids = some required → ∃ policies,
    ExtHolds der.certificatePolicies cert oidCertificatePolicies policies ∧
      required ⊆ (policies.getD []).map (·.policyIdentifier)
  dnAttrs : ∀ rule, policy.requiredLeafSubjectDnAttrs = some rule →
    evaluateDnAttrRule cert.tbsCertificate.subject rule = true

/-- Everything the policy asks besides the walk that all policies share. -/
structure Meets (chain : List Certificate) : Prop where
  short : nonSelfIssuedCount (chain.drop 1) ≤ policy.maxPathLen
  everywhere : ∀ cert ∈ chain, MeetsAnywhere der policy cert
  leaf : ∀ cert, chain.head? = some cert → MeetsAsLeaf der policy cert
  cas : ∀ cert ∈ chain.drop 1, MeetsAsCa der policy cert

/-- The requirements on the certificate at a position. -/
structure MeetsAt (cert : Certificate) (index : Nat) : Prop where
  everywhere : MeetsAnywhere der policy cert
  leaf : index = 0 → MeetsAsLeaf der policy cert
  ca : index ≠ 0 → MeetsAsCa der policy cert

end Requirements

section Checks

variable {der : DerCodec} {policy : ValidationPolicy} {cert : Certificate} {index : Nat}

theorem tryFindCertExt_ok_iff {α : Type} {decode : Bytes → Option α} {oid : ObjectIdentifier}
    {content : Option α} :
    tryFindCertExt decode cert oid index = .ok content ↔ ExtHolds decode cert oid content := by
  unfold tryFindCertExt ExtHolds
  cases findExtension cert oid with
  | none => simp [eq_comm]
  | some extension =>
      cases decoded : decode extension.extnValue with
      | none => simp [decoded]
      | some value => simp [decoded, eq_comm]

theorem ExtHolds.unique {α : Type} {decode : Bytes → Option α} {oid : ObjectIdentifier}
    {first second : Option α} (here : ExtHolds decode cert oid first)
    (there : ExtHolds decode cert oid second) : first = second := by
  have found : tryFindCertExt decode cert oid 0 = .ok first := tryFindCertExt_ok_iff.mpr here
  rw [tryFindCertExt_ok_iff.mpr there] at found
  exact (Except.ok.inj found).symm

theorem enforceSignatureAlgAllowlist_ok_iff :
    enforceSignatureAlgAllowlist policy cert index = .ok () ↔
      ∀ allowed, policy.allowedSignatureAlgs = some allowed →
        cert.signatureAlgorithm.oid ∈ allowed := by
  unfold enforceSignatureAlgAllowlist
  cases policy.allowedSignatureAlgs with
  | none => simp
  | some allowed => simp

theorem checkValidity_ok_iff {nowUnix : Nat} :
    checkValidity cert index nowUnix = .ok () ↔
      timeToUnixSecs cert.tbsCertificate.validity.notBefore ≤ nowUnix ∧
      nowUnix ≤ timeToUnixSecs cert.tbsCertificate.validity.notAfter := by
  rw [checkValidity, requireThat_ok_iff, decide_eq_true_iff]

theorem checkMaxValidity_ok_iff :
    checkMaxValidity policy cert index = .ok () ↔
      ∀ maxSecs, policy.maxValiditySecs = some maxSecs →
        timeToUnixSecs cert.tbsCertificate.validity.notAfter ≤
          timeToUnixSecs cert.tbsCertificate.validity.notBefore + maxSecs := by
  unfold checkMaxValidity
  cases policy.maxValiditySecs with
  | none => simp
  | some maxSecs => simp [Nat.sub_le_iff_le_add, Nat.add_comm]

theorem checkMinRsaBits_ok_iff :
    checkMinRsaBits der policy cert index = .ok () ↔
      ∀ minBits bits, policy.minRsaKeyBits = some minBits →
        rsaPublicKeyBits der cert.tbsCertificate.subjectPublicKeyInfo = some bits →
        minBits ≤ bits := by
  unfold checkMinRsaBits
  cases policy.minRsaKeyBits with
  | none => simp
  | some minBits =>
      cases rsaPublicKeyBits der cert.tbsCertificate.subjectPublicKeyInfo with
      | none => simp
      | some bits => simp

theorem checkKeyCertSign_ok_iff :
    checkKeyCertSign der policy cert index = .ok () ↔
      (policy.enforceKeyUsage = true → ∃ usage,
        ExtHolds der.keyUsage cert oidKeyUsage usage ∧ usage.map (·.keyCertSign) ≠ some false) := by
  unfold checkKeyCertSign
  cases policy.enforceKeyUsage with
  | false => simp
  | true =>
      simp [hasKeyCertSign, Walk.bind_ok, tryFindCertExt_ok_iff]

theorem checkCrlSign_ok_iff :
    checkCrlSign der policy cert index = .ok () ↔
      (policy.requireCrlSignOnCas = true → ∃ usage,
        ExtHolds der.keyUsage cert oidKeyUsage usage ∧ usage.map (·.crlSign) ≠ some false) := by
  unfold checkCrlSign
  cases policy.requireCrlSignOnCas with
  | false => simp
  | true =>
      simp [hasCrlSign, Walk.bind_ok, tryFindCertExt_ok_iff]

theorem checkLeafSan_ok_iff {san : Option SubjectAltName} :
    checkLeafSan policy san = .ok () ↔
      (policy.requireSubjectAltName = true → san.getD [] ≠ []) := by
  unfold checkLeafSan
  cases policy.requireSubjectAltName <;> simp

theorem checkLeafRfc822San_ok_iff {san : Option SubjectAltName} :
    checkLeafRfc822San policy san = .ok () ↔
      (policy.requireSubjectAltName = true → policy.requireRfc822San = true →
        ∃ name ∈ san.getD [], isRfc822Name name = true) := by
  unfold checkLeafRfc822San
  cases policy.requireSubjectAltName <;> cases policy.requireRfc822San <;> simp

theorem checkLeafEku_ok_iff :
    checkLeafEku der policy cert = .ok () ↔
      ∀ required, policy.requiredLeafEku = some required → ∃ ekus,
        ExtHolds der.extendedKeyUsage cert oidExtendedKeyUsage ekus ∧ required ⊆ ekus.getD [] := by
  unfold checkLeafEku
  cases policy.requiredLeafEku with
  | none => simp
  | some required => simp [Walk.bind_ok, tryFindCertExt_ok_iff, List.subset_def]

theorem checkLeafPolicyOids_ok_iff {policies : Option CertificatePolicies} :
    checkLeafPolicyOids policy policies = .ok () ↔
      ∀ required, policy.requiredLeafPolicyOids = some required →
        required ⊆ (policies.getD []).map (·.policyIdentifier) := by
  unfold checkLeafPolicyOids
  cases policy.requiredLeafPolicyOids with
  | none => simp
  | some required =>
      dsimp only
      cases missing : required.find? (fun oid =>
          !(policies.getD []).any (fun information => information.policyIdentifier == oid)) with
      | none =>
          rw [List.find?_eq_none] at missing
          simp only [true_iff, Option.some.injEq]
          rintro _ rfl oid listed
          simpa using missing oid listed
      | some oid =>
          have absent := List.find?_some missing
          have listed := List.mem_of_find?_eq_some missing
          simp only [reduceCtorEq, false_iff]
          intro each
          rcases List.mem_map.mp (each required rfl listed) with ⟨information, member, same⟩
          simp only [Bool.not_eq_true', List.any_eq_false, beq_iff_eq] at absent
          exact absent information member same

theorem checkLeafDnAttrs_ok_iff :
    checkLeafDnAttrs policy cert = .ok () ↔
      ∀ rule, policy.requiredLeafSubjectDnAttrs = some rule →
        evaluateDnAttrRule cert.tbsCertificate.subject rule = true := by
  unfold checkLeafDnAttrs
  cases policy.requiredLeafSubjectDnAttrs with
  | none => simp
  | some rule => simp

end Checks

section Walks

variable (der : DerCodec) (verifier : SignatureVerifier) (chain : List Certificate)

def bareCheckCa (cert : Certificate) (index : Nat) : Result Unit :=
  if index = 0 then .ok ()
  else do
    let constraints ← tryFindCertExt der.basicConstraints cert oidBasicConstraints index
    requireThat ((constraints.map (·.ca)).getD false) (.notCA index)
    checkPathLen index chain constraints

/-- The link track of the walk without what a policy asks. -/
def bareLinkStep (cert : Certificate) (below : List Certificate) (issuer : WorkingIssuer) :
    Result WorkingIssuer := do
  let index := below.length
  verifyCertSignature der cert index issuer.workingSpki verifier
  checkIssuerLinkage cert index issuer.workingIssuerName issuer.workingIssuerIsSanIdentity
  checkCriticalExtensions cert index
  let _ ← certPolicies der cert index
  let _ ← certSubjectAltNames der cert index
  bareCheckCa der chain cert index
  pure (issuerOf cert)

end Walks

section Exchange

variable {der : DerCodec} {policy : ValidationPolicy} {verifier : SignatureVerifier}
variable {chain : List Certificate}

theorem certChecks_ok_iff_meets {cert : Certificate} {index : Nat} {issuer : WorkingIssuer} :
    certChecks der policy verifier cert index issuer = .ok () ↔
      (verifyCertSignature der cert index issuer.workingSpki verifier = .ok () ∧
        checkIssuerLinkage cert index issuer.workingIssuerName
          issuer.workingIssuerIsSanIdentity = .ok () ∧
        checkCriticalExtensions cert index = .ok ()) ∧
      MeetsAnywhere der policy cert := by
  rw [certChecks_ok_iff, enforceSignatureAlgAllowlist_ok_iff, checkValidity_ok_iff,
    checkMaxValidity_ok_iff, checkMinRsaBits_ok_iff]
  constructor
  · rintro ⟨algorithm, signed, linked, current, lifetime, keySize, handled⟩
    exact ⟨⟨signed, linked, handled⟩, algorithm, current, lifetime, keySize⟩
  · rintro ⟨⟨signed, linked, handled⟩, asked⟩
    exact ⟨asked.algorithm, signed, linked, asked.current, asked.lifetime, asked.keySize, handled⟩

theorem checkLeaf_ok_iff_meets {cert : Certificate} {san : Option SubjectAltName}
    {policies : Option CertificatePolicies}
    (named : ExtHolds der.subjectAltName cert oidSubjectAltName san)
    (decoded : ExtHolds der.certificatePolicies cert oidCertificatePolicies policies) :
    checkLeaf der policy cert 0 san policies = .ok () ↔ MeetsAsLeaf der policy cert := by
  rw [checkLeaf, if_pos rfl]
  simp only [Walk.then_ok, checkLeafSan_ok_iff, checkLeafEku_ok_iff, checkLeafPolicyOids_ok_iff,
    checkLeafDnAttrs_ok_iff, checkLeafRfc822San_ok_iff]
  constructor
  · rintro ⟨sanAsked, eku, oids, attrs, mailbox⟩
    exact
      { san := fun asked => ⟨san, named, sanAsked asked⟩
        rfc822San := fun asked more => ⟨san, named, mailbox asked more⟩
        eku := eku
        policyOids := fun required asked => ⟨policies, decoded, oids required asked⟩
        dnAttrs := attrs }
  · intro asked
    refine ⟨?_, asked.eku, ?_, asked.dnAttrs, ?_⟩
    · intro required
      rcases asked.san required with ⟨other, held, nonempty⟩
      rwa [named.unique held]
    · intro required wanted
      rcases asked.policyOids required wanted with ⟨other, held, covered⟩
      rwa [decoded.unique held]
    · intro required more
      rcases asked.rfc822San required more with ⟨other, held, found⟩
      rwa [named.unique held]

theorem checkCa_ok_iff_meets {cert : Certificate} {index : Nat} (inner : index ≠ 0) :
    checkCa der policy cert index chain = .ok () ↔
      bareCheckCa der chain cert index = .ok () ∧ MeetsAsCa der policy cert := by
  simp only [checkCa, bareCheckCa, if_neg inner, Walk.bind_ok, Unique.exists_iff,
    PUnit.default_eq_unit, requireThat_ok_iff, checkKeyCertSign_ok_iff, checkCrlSign_ok_iff]
  constructor
  · rintro ⟨constraints, found, flagged, certSign, crlSign, short⟩
    exact ⟨⟨constraints, found, flagged, short⟩, certSign, crlSign⟩
  · rintro ⟨⟨constraints, found, flagged, short⟩, asked⟩
    exact ⟨constraints, found, flagged, asked.certSign, asked.crlSign, short⟩

theorem bareLinkStep_ok_iff {cert : Certificate} {below : List Certificate}
    {issuer next : WorkingIssuer} :
    bareLinkStep der verifier chain cert below issuer = .ok next ↔
      (verifyCertSignature der cert below.length issuer.workingSpki verifier = .ok () ∧
        checkIssuerLinkage cert below.length issuer.workingIssuerName
          issuer.workingIssuerIsSanIdentity = .ok () ∧
        checkCriticalExtensions cert below.length = .ok ()) ∧
      (∃ policies, certPolicies der cert below.length = .ok policies) ∧
      (∃ san, certSubjectAltNames der cert below.length = .ok san) ∧
      bareCheckCa der chain cert below.length = .ok () ∧
      next = issuerOf cert := by
  simp only [bareLinkStep, Walk.bind_ok, Unique.exists_iff, Walk.pure_ok]
  constructor
  · rintro ⟨signed, linked, handled, policies, decoded, san, named, flagged, rfl⟩
    exact ⟨⟨signed, linked, handled⟩, ⟨policies, decoded⟩, ⟨san, named⟩, flagged, rfl⟩
  · rintro ⟨⟨signed, linked, handled⟩, ⟨policies, decoded⟩, ⟨san, named⟩, flagged, rfl⟩
    exact ⟨signed, linked, handled, policies, decoded, san, named, flagged, rfl⟩

/-- One iteration of the link track is the bare one and the policy's requirements. -/
theorem linkStep_ok_iff_meets {cert : Certificate} {below : List Certificate}
    {issuer next : WorkingIssuer} :
    linkStep der policy verifier chain cert below issuer = .ok next ↔
      bareLinkStep der verifier chain cert below issuer = .ok next ∧
      MeetsAt der policy cert below.length := by
  rw [linkStep_ok_iff, bareLinkStep_ok_iff]
  constructor
  · rintro ⟨policies, san, checked, decoded, named, leafChecked, caChecked, rfl⟩
    rcases certChecks_ok_iff_meets.mp checked with ⟨bare, everywhere⟩
    have flagged : bareCheckCa der chain cert below.length = .ok () := by
      by_cases bottom : below.length = 0
      · rw [bareCheckCa, if_pos bottom]
      · exact (checkCa_ok_iff_meets bottom |>.mp (caChecked bottom)).1
    refine ⟨⟨bare, ⟨policies, decoded⟩, ⟨san, named⟩, flagged, rfl⟩, everywhere, ?_, ?_⟩
    · intro bottom
      rw [bottom] at leafChecked
      exact (checkLeaf_ok_iff_meets (tryFindCertExt_ok_iff.mp named)
        (tryFindCertExt_ok_iff.mp decoded)).mp leafChecked
    · intro inner
      exact (checkCa_ok_iff_meets inner |>.mp (caChecked inner)).2
  · rintro ⟨⟨bare, ⟨policies, decoded⟩, ⟨san, named⟩, flagged, rfl⟩, asked⟩
    refine ⟨policies, san, certChecks_ok_iff_meets.mpr ⟨bare, asked.everywhere⟩, decoded, named,
      ?_, ?_, rfl⟩
    · by_cases bottom : below.length = 0
      · rw [bottom]
        exact (checkLeaf_ok_iff_meets (tryFindCertExt_ok_iff.mp named)
          (tryFindCertExt_ok_iff.mp decoded)).mpr (asked.leaf bottom)
      · rw [checkLeaf, if_neg bottom]
    · intro inner
      exact (checkCa_ok_iff_meets inner).mpr ⟨flagged, asked.ca inner⟩

/-- The requirements at every position are those on the chain, but for its length. -/
theorem along_meetsAt_iff :
    Walk.Along (fun cert below => MeetsAt der policy cert below.length) chain.reverse ↔
      (∀ cert ∈ chain, MeetsAnywhere der policy cert) ∧
      (∀ cert, chain.head? = some cert → MeetsAsLeaf der policy cert) ∧
      ∀ cert ∈ chain.drop 1, MeetsAsCa der policy cert := by
  have located : Walk.Along (fun cert below => MeetsAt der policy cert below.length)
      chain.reverse ↔
      ∀ index cert, chain[index]? = some cert → MeetsAt der policy cert index := by
    rw [Walk.along_iff]
    constructor
    · intro each index cert found
      have met := each _ cert _ (reverse_split found)
      rwa [take_reverse_length found] at met
    · intro each above cert below split
      apply each below.length cert
      have same : chain = below.reverse ++ cert :: above.reverse := by
        rw [← List.reverse_reverse chain, split]
        simp
      rw [same, ← List.length_reverse, List.getElem?_append_right (Nat.le_refl _), Nat.sub_self]
      rfl
  rw [located]
  constructor
  · intro each
    refine ⟨?_, ?_, ?_⟩
    · intro cert member
      rcases List.mem_iff_getElem?.mp member with ⟨index, found⟩
      exact (each index cert found).everywhere
    · intro cert first
      rw [List.head?_eq_getElem?] at first
      exact (each 0 cert first).leaf rfl
    · intro cert member
      rcases List.mem_iff_getElem?.mp member with ⟨index, found⟩
      rw [List.getElem?_drop] at found
      exact (each (1 + index) cert found).ca (by omega)
  · rintro ⟨everywhere, leaf, cas⟩ index cert found
    refine ⟨everywhere cert (List.mem_of_getElem? found), ?_, ?_⟩
    · rintro rfl
      exact leaf cert (by rw [List.head?_eq_getElem?, found])
    · intro inner
      apply cas cert
      apply List.mem_iff_getElem?.mpr
      refine ⟨index - 1, ?_⟩
      rw [List.getElem?_drop, Nat.add_sub_cancel' (Nat.pos_of_ne_zero inner), found]

end Exchange

section Verdict

variable {der : DerCodec} {policy other : ValidationPolicy} {verifier : SignatureVerifier}
variable {chain : List Certificate} {anchors : List TrustAnchor}

theorem checkMaxPathLen_ok_iff_short :
    checkMaxPathLen policy chain = .ok () ↔
      nonSelfIssuedCount (chain.drop 1) ≤ policy.maxPathLen := by
  rw [checkMaxPathLen, requireThat_ok_iff, decide_eq_true_iff]

theorem linkWalk_ok_iff_meets {anchor : TrustAnchor} {issuer : WorkingIssuer} :
    linkWalk der policy verifier chain anchor = .ok issuer ↔
      Walk.walk (bareLinkStep der verifier chain) chain.reverse (anchorIssuer anchor) =
          .ok issuer ∧
        Walk.Along (fun cert below => MeetsAt der policy cert below.length) chain.reverse := by
  apply Walk.walk_guarded_iff
  intro cert below issuer next
  exact linkStep_ok_iff_meets

/-- An accepted chain meets the requirements of its policy. -/
theorem meets_of_validatePath {path : ValidatedPath}
    (accepted : validatePath der policy verifier chain anchors = .ok path) :
    Meets der policy chain := by
  have short := (validatePath_accepts_iff.mp ⟨path, accepted⟩).2.2.1
  rcases validatePath_ok accepted with ⟨_, _, _, _, _, _, _, _, walked, _⟩
  rcases chainWalk_accepts_iff.mp walked with ⟨⟨⟨_, linked⟩, _⟩, _⟩
  have asked := along_meetsAt_iff.mp (linkWalk_ok_iff_meets.mp linked).2
  exact
    { short := checkMaxPathLen_ok_iff_short.mp short
      everywhere := asked.1
      leaf := asked.2.1
      cas := asked.2.2 }

theorem initialPolicyState_congr (shared : SamePolicyInputs policy other) :
    initialPolicyState policy chain = initialPolicyState other chain := by
  simp only [initialPolicyState, initialCounters, shared.explicitPolicy, shared.anyPolicyInhibit,
    shared.mappingInhibit]

/-- Apart from the policy processing, only the requirements tell policies apart. -/
theorem OtherChecksPass.exchange {anchor : TrustAnchor} (met : Meets der other chain)
    (passed : OtherChecksPass der policy verifier chain anchor) :
    OtherChecksPass der other verifier chain anchor := by
  rcases passed with ⟨⟨issuer, linked⟩, named⟩
  have bare := (linkWalk_ok_iff_meets.mp linked).1
  have along := along_meetsAt_iff.mpr ⟨met.everywhere, met.leaf, met.cas⟩
  exact ⟨⟨issuer, linkWalk_ok_iff_meets.mpr ⟨bare, along⟩⟩, named⟩

/-- A walk that succeeds under one policy succeeds, with its tree, under any other policy with
the same inputs whose requirements are met. -/
theorem chainWalk_exchange (shared : SamePolicyInputs policy other)
    (met : Meets der other chain) {leaf : Certificate} {anchor : TrustAnchor}
    {tree : Option PolicyTree}
    (walked : chainWalk der policy verifier chain leaf anchor = .ok tree) :
    chainWalk der other verifier chain leaf anchor = .ok tree := by
  rcases chainWalk_accepts_iff.mp walked with ⟨passed, state, stepped, wrapped⟩
  have samePolicies : policyWalk der other chain = .ok state := by
    rw [policyWalk, ← initialPolicyState_congr shared]
    exact stepped
  have sameWrap : wrapUp der other chain leaf state = .ok tree := by
    rw [wrapUp, ← shared.policySet]
    exact wrapped
  exact chainWalk_accepts_iff.mpr ⟨passed.exchange met, state, samePolicies, sameWrap⟩

/-- Two policies whose walks succeed from the same anchors choose the same anchor. -/
theorem tryAnchors_transfer {relates : Option PolicyTree → Option PolicyTree → Prop}
    {leaf lastCert : Certificate} {path : ValidatedPath}
    (forward : ∀ anchor tree, chainWalk der policy verifier chain leaf anchor = .ok tree →
      ∃ image, chainWalk der other verifier chain leaf anchor = .ok image ∧ relates tree image)
    (back : ∀ anchor image, chainWalk der other verifier chain leaf anchor = .ok image →
      ∃ tree, chainWalk der policy verifier chain leaf anchor = .ok tree)
    {start : Nat} {lastErr otherErr : Error}
    (accepted : tryAnchors der policy verifier chain leaf lastCert start lastErr anchors =
      .ok path) :
    ∃ image, tryAnchors der other verifier chain leaf lastCert start otherErr anchors =
        .ok { path with validPolicyTree := image } ∧ relates path.validPolicyTree image := by
  induction anchors generalizing start lastErr otherErr with
  | nil => cases accepted
  | cons anchor rest ih =>
      rw [tryAnchors] at accepted ⊢
      by_cases candidate : isCandidate lastCert anchor = true
      · rw [if_pos candidate] at accepted ⊢
        cases here : chainWalk der policy verifier chain leaf anchor with
        | ok tree =>
            rw [here] at accepted
            rcases forward anchor tree here with ⟨image, there, related⟩
            rw [there, ← Except.ok.inj accepted]
            exact ⟨image, rfl, related⟩
        | error failure =>
            rw [here] at accepted
            cases there : chainWalk der other verifier chain leaf anchor with
            | ok image =>
                rcases back anchor image there with ⟨tree, walked⟩
                rw [here] at walked
                cases walked
            | error otherFailure => exact ih accepted
      · rw [if_neg candidate] at accepted ⊢
        exact ih accepted

/-- The exchange rule. Acceptance passes, with the whole path, from a policy to any other one
with the same inputs whose requirements the chain meets. -/
theorem validatePath_exchange (shared : SamePolicyInputs policy other)
    (met : Meets der other chain) {path : ValidatedPath}
    (accepted : validatePath der policy verifier chain anchors = .ok path) :
    validatePath der other verifier chain anchors = .ok path := by
  have own := meets_of_validatePath accepted
  have back : SamePolicyInputs other policy :=
    ⟨shared.explicitPolicy.symm, shared.anyPolicyInhibit.symm, shared.mappingInhibit.symm,
      shared.policySet.symm⟩
  rcases validatePath_accepts_iff.mp ⟨path, accepted⟩ with
    ⟨inputs, oids, short, leaf, lastCert, first, last, _⟩
  have otherShort := checkMaxPathLen_ok_iff_short.mpr met.short
  rw [validatePath_eq_tryAnchors inputs oids short first last] at accepted
  rw [validatePath_eq_tryAnchors inputs oids otherShort first last]
  have moved : ∃ image, tryAnchors der other verifier chain leaf lastCert 0 .noTrustedPath anchors =
      .ok { path with validPolicyTree := image } ∧ path.validPolicyTree = image :=
    tryAnchors_transfer
      (fun _ tree walked => ⟨tree, chainWalk_exchange shared met walked, rfl⟩)
      (fun _ tree walked => ⟨tree, chainWalk_exchange back own walked⟩) accepted
  rcases moved with ⟨image, tried, rfl⟩
  exact tried

end Verdict

/-- A chain is validated to a path exactly when it meets what the policy asks and some policy
with the same inputs validates it to that path. -/
theorem validatePath_ok_iff_meets (der : DerCodec) (policy : ValidationPolicy)
    (verifier : SignatureVerifier) (chain : List Certificate) (anchors : List TrustAnchor)
    (path : ValidatedPath) :
    validatePath der policy verifier chain anchors = .ok path ↔
      Meets der policy chain ∧ ∃ other, SamePolicyInputs other policy ∧
        validatePath der other verifier chain anchors = .ok path := by
  constructor
  · intro accepted
    exact ⟨meets_of_validatePath accepted, policy, ⟨rfl, rfl, rfl, rfl⟩, accepted⟩
  · rintro ⟨met, other, shared, accepted⟩
    exact validatePath_exchange shared met accepted

section Times

def ValidationPolicy.at (policy : ValidationPolicy) (nowUnix : Nat) : ValidationPolicy :=
  { policy with currentTimeUnix := nowUnix }

/-- The certificate is within its validity period. -/
def CurrentAt (nowUnix : Nat) (cert : Certificate) : Prop :=
  timeToUnixSecs cert.tbsCertificate.validity.notBefore ≤ nowUnix ∧
    nowUnix ≤ timeToUnixSecs cert.tbsCertificate.validity.notAfter

theorem Meets.at {der : DerCodec} {policy : ValidationPolicy} {chain : List Certificate}
    {nowUnix : Nat} (met : Meets der policy chain)
    (current : ∀ cert ∈ chain, CurrentAt nowUnix cert) : Meets der (policy.at nowUnix) chain :=
  { short := met.short
    everywhere := fun cert member =>
      { algorithm := (met.everywhere cert member).algorithm
        current := current cert member
        lifetime := (met.everywhere cert member).lifetime
        keySize := (met.everywhere cert member).keySize }
    leaf := fun cert first =>
      { san := (met.leaf cert first).san
        rfc822San := (met.leaf cert first).rfc822San
        eku := (met.leaf cert first).eku
        policyOids := (met.leaf cert first).policyOids
        dnAttrs := (met.leaf cert first).dnAttrs }
    cas := fun cert member =>
      { certSign := (met.cas cert member).certSign
        crlSign := (met.cas cert member).crlSign } }

end Times

/-- A chain that is accepted at one time is accepted at exactly the times that lie in every
validity period of the chain, and always to the same path. -/
theorem validatePath_times (der : DerCodec) (policy : ValidationPolicy)
    (verifier : SignatureVerifier) (chain : List Certificate) (anchors : List TrustAnchor)
    (path : ValidatedPath)
    (accepted : validatePath der policy verifier chain anchors = .ok path) (nowUnix : Nat)
    (result : ValidatedPath) :
    validatePath der (policy.at nowUnix) verifier chain anchors = .ok result ↔
      result = path ∧ ∀ cert ∈ chain, CurrentAt nowUnix cert := by
  have met := meets_of_validatePath accepted
  have shared : SamePolicyInputs policy (policy.at nowUnix) := ⟨rfl, rfl, rfl, rfl⟩
  have moves (current : ∀ cert ∈ chain, CurrentAt nowUnix cert) :
      validatePath der (policy.at nowUnix) verifier chain anchors = .ok path :=
    validatePath_exchange shared (met.at current) accepted
  constructor
  · intro later
    have current : ∀ cert ∈ chain, CurrentAt nowUnix cert := fun cert member =>
      ((meets_of_validatePath later).everywhere cert member).current
    rw [moves current] at later
    exact ⟨(Except.ok.inj later).symm, current⟩
  · rintro ⟨rfl, current⟩
    exact moves current

section TimesExample

open Concrete

private def timedCodec : DerCodec := policyCodec [[testPolicy 1]]

private def timedChain : List Certificate := policyChain [testPolicy 1] [testPolicy 1]

instance (nowUnix : Nat) (cert : Certificate) : Decidable (CurrentAt nowUnix cert) :=
  inferInstanceAs (Decidable (_ ∧ _))

/-- Accepted at the start of 2027, the chain is accepted in 2033 and not in 2036. -/
theorem validatePath_times_example :
    ∃ path, validatePath timedCodec (.new 1800000000) keyCopyVerifier timedChain policyAnchors =
        .ok path ∧
      validatePath timedCodec ((ValidationPolicy.new 1800000000).at 2000000000) keyCopyVerifier
        timedChain policyAnchors = .ok path ∧
      ¬∃ result, validatePath timedCodec ((ValidationPolicy.new 1800000000).at 2100000000)
        keyCopyVerifier timedChain policyAnchors = .ok result := by
  rcases (ok_of_isSome (by decide +kernel) : ∃ path, validatePath timedCodec (.new 1800000000)
    keyCopyVerifier timedChain policyAnchors = .ok path) with ⟨path, accepted⟩
  have times := validatePath_times timedCodec (.new 1800000000) keyCopyVerifier timedChain
    policyAnchors path accepted
  refine ⟨path, accepted, (times 2000000000 path).mpr ⟨rfl, by decide⟩, ?_⟩
  rintro ⟨result, late⟩
  have current := ((times 2100000000 result).mp late).2
  revert current
  decide

end TimesExample

end Pkix.Path
