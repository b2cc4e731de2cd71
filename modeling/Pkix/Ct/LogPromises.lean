import Pkix.Ct.EmbeddedScts

/-! What an accepted timestamp, tree head or proof of inclusion says that a log has done, when
no signature of the log can be forged. -/

namespace Pkix.Ct

open Pkix.Path MerkleTree

section Inclusion

variable {sha256 : Bytes → Digest} {leaves : List Bytes} {leaf : Bytes} {proof : MerkleAuditPath}

/-- Two of the octet strings are different and have one hash. -/
def Collision (sha256 : Bytes → Digest) (octets : List Bytes) : Prop :=
  ∃ first ∈ octets, ∃ second ∈ octets, first ≠ second ∧ sha256 first = sha256 second

/-- The octets hashed for the tree over the leaves. -/
def treeOctets (sha256 : Bytes → Digest) (leaves : List Bytes) : List Bytes :=
  [] :: (leaves.map (0x00 :: ·) ++
    (joined (innerHash sha256) (sha256 []) (leaves.map (merkleLeafHash sha256))).map
      (fun pair => innerInput pair.1 pair.2))

/-- The octets hashed for the leaf, for the proof and for the tree. -/
def auditedOctets (sha256 : Bytes → Digest) (leaf : Bytes) (proof : MerkleAuditPath)
    (leaves : List Bytes) : List Bytes :=
  (0x00 :: leaf) :: (hashedOctets sha256 proof.treeSize.toNat proof.leafIndex.toNat
    (merkleLeafHash sha256 leaf) proof.auditPath ++ treeOctets sha256 leaves)

theorem innerInput_ne_leaf {left right : Digest} : innerInput left right ≠ 0x00 :: leaf := by
  intro same
  exact absurd (List.cons.inj same).1 (by decide)

/-- A proof accepted under the root of some leaves is a proof of one of them, whatever size and
index it claims. -/
theorem mem_of_verifyInclusionInner
    (accepted : verifyInclusionInner sha256 (merkleLeafHash sha256 leaf) proof
      (merkleTreeHash sha256 leaves) = .ok ())
    (apart : ¬Collision sha256 (auditedOctets sha256 leaf proof leaves)) : leaf ∈ leaves := by
  have climbs := rebuild_eq_some_iff.mp (verifyInclusionInner_ok_iff.mp accepted).2
  have separate {first second : Bytes} (here : first ∈ auditedOctets sha256 leaf proof leaves)
      (there : second ∈ auditedOctets sha256 leaf proof leaves)
      (same : sha256 first = sha256 second) : first = second := by
    by_contra different
    exact apart ⟨first, here, second, there, different, same⟩
  have own : 0x00 :: leaf ∈ auditedOctets sha256 leaf proof leaves := List.mem_cons_self
  have inTree {octets : Bytes} (listed : octets ∈ treeOctets sha256 leaves) :
      octets ∈ auditedOctets sha256 leaf proof leaves :=
    List.mem_cons_of_mem _ (List.mem_append_right _ listed)
  have onWay {pair : Digest × Digest}
      (listed : pair ∈ climbed (innerHash sha256) (merkleLeafHash sha256 leaf)
        (sides proof.treeSize.toNat proof.leafIndex.toNat) proof.auditPath) :
      innerInput pair.1 pair.2 ∈ auditedOctets sha256 leaf proof leaves :=
    List.mem_cons_of_mem _ (List.mem_append_left _ (List.mem_map.mpr ⟨pair, listed, rfl⟩))
  have inner {pair : Digest × Digest}
      (listed : pair ∈ joined (innerHash sha256) (sha256 []) (leaves.map (merkleLeafHash sha256))) :
      innerInput pair.1 pair.2 ∈ auditedOctets sha256 leaf proof leaves :=
    inTree (List.mem_cons_of_mem _ (List.mem_append_right _ (List.mem_map.mpr ⟨pair, listed, rfl⟩)))
  have entry {other : Bytes} (listed : other ∈ leaves) :
      0x00 :: other ∈ auditedOctets sha256 leaf proof leaves :=
    inTree (List.mem_cons_of_mem _ (List.mem_append_left _ (List.mem_map.mpr ⟨other, listed, rfl⟩)))
  have none_ : [] ∈ auditedOctets sha256 leaf proof leaves := inTree List.mem_cons_self
  have node : IsNode (innerHash sha256) (sha256 []) (leaves.map (merkleLeafHash sha256))
      (merkleLeafHash sha256 leaf) := by
    apply isNode_of_climb climbs.1 ?_ ?_ climbs.2
    · intro pair here pair' there same
      have joins := innerInput_inj
        (separate (here.elim onWay inner) (there.elim onWay inner) same)
      exact Prod.ext joins.1 joins.2
    · intro pair listed
      constructor
      · intro isLeaf
        rcases List.mem_map.mp isLeaf with ⟨other, member, same⟩
        exact innerInput_ne_leaf (separate (entry member) (onWay listed) same).symm
      · intro isEmpty
        have same := separate (onWay listed) none_ isEmpty
        cases same
  rcases node with isLeaf | ⟨pair, listed, same⟩ | isEmpty
  · rcases List.mem_map.mp isLeaf with ⟨other, member, same⟩
    rw [← (List.cons.inj (separate (entry member) own same)).2]
    exact member
  · exact absurd (separate (inner listed) own same) innerInput_ne_leaf
  · have same := separate own none_ isEmpty
    cases same

end Inclusion

section Signatures

variable {sha256 : Bytes → Digest} {codec : CertificateCodec} {self : SctVerifier sha256}
variable {signed : Digest → CtInput → Prop} {sct : SignedCertificateTimestamp} {log found : CtLog}
variable {input : CtInput} {hashAlg sigAlg : UInt8} {signature : Bytes}

/-- Whatever verifies under the key of a log are the octets of an input that the log signed. -/
def SctVerifier.Unforgeable (codec : CertificateCodec) (self : SctVerifier sha256)
    (signed : Digest → CtInput → Prop) : Prop :=
  ∀ id log key algorithm message signature, self.logs.get id = some log →
    codec.spkiFromDer log.keyDer = some key →
    self.verifier algorithm key message signature = true →
    ∃ input, signed id input ∧ input.signedInput = .ok message

/-- The log is known by the hash of its key, and it signed an input with the fields. -/
structure SctVerifier.Vouched (checker : SctVerifier sha256) (signed : Digest → CtInput → Prop)
    (id : Digest) (log : CtLog) (fields : CtFields) : Prop where
  known : checker.logs.get id = some log
  keyed : sha256 log.keyDer = id
  input : ∃ input, signed id input ∧ input.fields = fields

namespace SctVerifier

theorem verifyUnderLog_ok {signedInput : Result Bytes}
    (verified : self.verifyUnderLog codec log hashAlg sigAlg signedInput signature = .ok found) :
    found = log ∧ ∃ algorithm key message, signedInput = .ok message ∧
      codec.spkiFromDer log.keyDer = some key ∧
      self.verifier algorithm key message signature = true := by
  simp only [verifyUnderLog, Walk.bind_ok, okOr_ok] at verified
  rcases verified with ⟨oid, _, message, built, key, decoded, verdict⟩
  split at verdict
  · rename_i accepts
    exact ⟨(Except.ok.inj verdict).symm, _, key, message, built, decoded, accepts⟩
  · cases verdict

variable (input) in
/-- Two inputs with the same octets have the same fields, so the log signed these. -/
theorem vouched_of_verifyUnderLog (unforgeable : self.Unforgeable codec signed) {id : Digest}
    (known : self.logs.get id = some log)
    (verified : self.verifyUnderLog codec log hashAlg sigAlg input.signedInput signature =
      .ok found) :
    found = log ∧ self.Vouched signed id log input.fields := by
  rcases verifyUnderLog_ok verified with ⟨same, algorithm, key, message, built, decoded, accepts⟩
  rcases unforgeable id log key algorithm message signature known decoded accepts with
    ⟨other, given, octets⟩
  refine ⟨same, known, (self.logs.keyed id log known).2, other, given, ?_⟩
  exact CtInput.fields_eq_of_builds (.inl octets) (.inl built)

end SctVerifier

end Signatures

section Promises

variable {sha256 : Bytes → Digest} {codec : CertificateCodec} {self : SctVerifier sha256}
variable {signed : Digest → CtInput → Prop}

end Promises

section Audits

variable {sha256 : Bytes → Digest} {codec : CertificateCodec} {self : SctVerifier sha256}
variable {signed : Digest → CtInput → Prop}

/-- The entries of a log and the leaves of its tree, each built from its entry. -/
structure LogRecord where
  entries : List CtInput
  leaves : List Bytes
  built : List.Forall₂ (fun entry leaf => entry.merkleTreeLeaf = some (.ok leaf)) entries leaves

theorem LogRecord.entry_of_leaf (record : LogRecord) {leaf : Bytes}
    (listed : leaf ∈ record.leaves) :
    ∃ entry ∈ record.entries, entry.merkleTreeLeaf = some (.ok leaf) := by
  have built := record.built
  generalize record.entries = entries at built
  generalize record.leaves = leaves at built listed
  induction built with
  | nil => cases listed
  | cons made others ih =>
      rcases List.mem_cons.mp listed with rfl | later
      · exact ⟨_, List.mem_cons_self, made⟩
      · rcases ih later with ⟨entry, member, made⟩
        exact ⟨entry, List.mem_cons_of_mem _ member, made⟩

/-- Every tree head that a log signs is the head of a record of it. -/
def HeadsCommit (sha256 : Bytes → Digest) (signed : Digest → CtInput → Prop)
    (history : Digest → LogRecord → Prop) : Prop :=
  ∀ id sth, signed id (.treeHead sth) → ∃ record, history id record ∧
    record.leaves.length = sth.treeSize.toNat ∧
    sth.rootHash = merkleTreeHash sha256 record.leaves

variable {history : Digest → LogRecord → Prop} {logId : Digest} {sth : SignedTreeHead}
variable {log : CtLog} {proof : MerkleAuditPath} {leaf : Bytes}

/-- The log has a record of the size of the tree head with an entry of the fields, or the hash
collides on octets that were hashed. -/
def Audited (sha256 : Bytes → Digest) (history : Digest → LogRecord → Prop) (logId : Digest)
    (sth : SignedTreeHead) (proof : MerkleAuditPath) (leaf : Bytes) (fields : CtFields) : Prop :=
  ∃ record, history logId record ∧ record.leaves.length = sth.treeSize.toNat ∧
    ((∃ entry ∈ record.entries, entry.fields = fields) ∨
      Collision sha256 (auditedOctets sha256 leaf proof record.leaves))

/-- A tree head is signed by its log, and is then the head of one of its records. -/
theorem record_of_verifySth (unforgeable : self.Unforgeable codec signed)
    (commits : HeadsCommit sha256 signed history)
    (verified : self.verifySth codec logId sth = .ok log) :
    ∃ record, history logId record ∧ record.leaves.length = sth.treeSize.toNat ∧
      sth.rootHash = merkleTreeHash sha256 record.leaves := by
  simp only [SctVerifier.verifySth, Walk.bind_ok, okOr_ok] at verified
  rcases verified with ⟨found, known, checked⟩
  rcases (SctVerifier.vouched_of_verifyUnderLog (.treeHead sth) unforgeable known
    checked).2.input with ⟨input, given, same⟩
  cases input with
  | x509Entry => cases same
  | precertEntry => cases same
  | treeHead other =>
      rcases commits logId other given with ⟨record, kept, sized, rooted⟩
      simp only [CtInput.fields, CtFields.treeHead.injEq] at same
      refine ⟨record, kept, ?_, ?_⟩
      · rw [sized, same.2.1]
      · rw [← same.2.2, rooted]

theorem audited_of_built (unforgeable : self.Unforgeable codec signed)
    (commits : HeadsCommit sha256 signed history) {input : CtInput}
    (made : input.merkleTreeLeaf = some (.ok leaf))
    (verified : self.verifySth codec logId sth = .ok log)
    (included : self.verifyInclusion (merkleLeafHash sha256 leaf) proof sth.rootHash = .ok ()) :
    Audited sha256 history logId sth proof leaf input.fields := by
  rcases record_of_verifySth unforgeable commits verified with ⟨record, kept, sized, rooted⟩
  refine ⟨record, kept, sized, ?_⟩
  by_cases collides : Collision sha256 (auditedOctets sha256 leaf proof record.leaves)
  · exact .inr collides
  · rw [rooted] at included
    rcases record.entry_of_leaf (mem_of_verifyInclusionInner included collides) with
      ⟨entry, member, built⟩
    exact .inl ⟨entry, member, CtInput.fields_eq_of_builds (.inr built) (.inr made)⟩

/-- A proof of inclusion under an accepted tree head shows that the log has recorded the
timestamp and the certificate, whatever size and index the proof claims for its leaf: for a
timestamp that was delivered beside the certificate, and for one embedded in it. -/
theorem audited_of_verifyInclusion (unforgeable : self.Unforgeable codec signed)
    (commits : HeadsCommit sha256 signed history)
    (verified : self.verifySth codec logId sth = .ok log)
    (included : self.verifyInclusion (merkleLeafHash sha256 leaf) proof sth.rootHash = .ok ())
    (sct : SignedCertificateTimestamp) :
    (∀ certDer, merkleTreeLeafForCert sct certDer = .ok leaf →
      Audited sha256 history logId sth proof leaf
        (.x509Entry sct.timestampMs certDer sct.extensions)) ∧
    ∀ leafCertDer issuerCertDer,
      merkleTreeLeafForPrecert sha256 codec sct leafCertDer issuerCertDer = .ok leaf →
      ∃ tbs hash, tbsWithoutSctList codec leafCertDer = .ok tbs ∧
        issuerKeyHashFromCert sha256 codec issuerCertDer = .ok hash ∧
        Audited sha256 history logId sth proof leaf
          (.precertEntry sct.timestampMs hash tbs sct.extensions) := by
  constructor
  · intro certDer built
    have made : (CtInput.x509Entry sct certDer).merkleTreeLeaf = some (.ok leaf) :=
      congrArg some built
    exact audited_of_built unforgeable commits made verified included
  · intro leafCertDer issuerCertDer built
    simp only [merkleTreeLeafForPrecert, Walk.bind_ok] at built
    rcases built with ⟨tbs, stripped, hash, hashed, built⟩
    have made : (CtInput.precertEntry sct hash tbs).merkleTreeLeaf = some (.ok leaf) :=
      congrArg some built
    exact ⟨tbs, hash, stripped, hashed,
      audited_of_built unforgeable commits made verified included⟩

end Audits

namespace Concrete

open Path.Concrete

/-- The log signs the precertificate, and the final certificate as it is delivered. -/
def signedByLog : List CtInput :=
  [.precertEntry givenSct issuerKeyHash (encodeTbs precertOfFinal.tbsCertificate),
    .x509Entry givenSct (encodeCertificate finalCert)]

/-- The key of the log verifies its signature over these inputs and nothing else. -/
def signingVerifier (inputs : List CtInput) : SignatureVerifier :=
  fun _ key message signature =>
    key = ecPublicKey [7] && signature = [7] &&
      inputs.any (fun input => input.signedInput.toOption = some message)

theorem signingVerifier_unforgeable {sha256 : Bytes → Digest} (logs : CtLogList sha256)
    (inputs : List CtInput) :
    SctVerifier.Unforgeable finalCodec ⟨logs, signingVerifier inputs⟩
      (fun _ input => input ∈ inputs) := by
  intro id log key algorithm message signature _ _ accepts
  simp only [signingVerifier, Bool.and_eq_true, List.any_eq_true, decide_eq_true_eq] at accepts
  rcases accepts.2 with ⟨input, listed, built⟩
  refine ⟨input, listed, ?_⟩
  cases octets : input.signedInput with
  | error failure => simp [octets, Except.toOption] at built
  | ok other =>
      simp only [octets, Except.toOption, Option.some.injEq] at built
      rw [built]

end Concrete

namespace Concrete

def leafOf (entry : CtInput) : Bytes := (entry.merkleTreeLeaf.bind Except.toOption).getD []

def precertLeafHash : Digest :=
  ⟨[0xB8, 0x5E, 0xC5, 0x5F, 0x1B, 0x0C, 0xEB, 0x46, 0xD6, 0x85, 0x8B,
    0x90, 0x32, 0xE6, 0x49, 0x3A, 0x89, 0xC6, 0x36, 0x6E, 0x4A, 0xA3,
    0xC5, 0x7F, 0x2B, 0x5C, 0xCE, 0x63, 0xA4, 0xB9, 0x04, 0xAD], rfl⟩

def finalLeafHash : Digest :=
  ⟨[0x3E, 0x3F, 0xB2, 0xCC, 0x72, 0x80, 0x8A, 0xB5, 0x5F, 0x3D, 0x63,
    0x36, 0x5B, 0xA8, 0x65, 0x1C, 0x1B, 0x44, 0x5D, 0xAF, 0x3C, 0x50,
    0x7A, 0x3F, 0xA8, 0xA6, 0xB3, 0x87, 0x82, 0x18, 0xE7, 0x4D], rfl⟩

def twoEntriesRoot : Digest :=
  ⟨[0xE8, 0x0D, 0x96, 0xAF, 0x67, 0x68, 0x8C, 0x5E, 0xCD, 0x92, 0x25,
    0x59, 0x53, 0xC1, 0x09, 0x3D, 0x71, 0x2C, 0xFF, 0x16, 0x6B, 0x7D,
    0xF2, 0x42, 0x02, 0x0D, 0x42, 0x09, 0xA7, 0xBF, 0x3D, 0xEA], rfl⟩

/-- SHA-256 on the octets of the tree over the two entries, and on the two keys. -/
def sha256OfLog (octets : Bytes) : Digest :=
  if some octets = signedByLog[0]?.map (fun entry => 0x00 :: leafOf entry) then precertLeafHash
  else if some octets = signedByLog[1]?.map (fun entry => 0x00 :: leafOf entry) then finalLeafHash
  else if octets = innerInput precertLeafHash finalLeafHash then twoEntriesRoot
  else sha256OfKeys octets

def twoEntries : LogRecord where
  entries := signedByLog
  leaves := signedByLog.map leafOf
  built := .cons (by decide +kernel) (.cons (by decide +kernel) .nil)

def signedHead : SignedTreeHead where
  treeSize := 2
  timestampMs := 1735689700000
  rootHash := twoEntriesRoot
  hashAlg := 4
  sigAlg := 3
  signature := [7]

def headLog : SctVerifier sha256OfLog where
  logs :=
    { logs := (CtLogList.new : CtLogList sha256OfLog).logs.insert usableLog.logId usableLog
      keyed := CtLogList.new.keyed_insert usableLog (by decide +kernel) }
  verifier := signingVerifier [.treeHead signedHead]

theorem signedHead_commits :
    HeadsCommit sha256OfLog (fun _ input => input ∈ [CtInput.treeHead signedHead])
      (fun _ record => record = twoEntries) := by
  intro id sth given
  simp only [List.mem_cons, List.not_mem_nil, or_false, CtInput.treeHead.injEq] at given
  subst given
  refine ⟨twoEntries, rfl, rfl, ?_⟩
  decide +kernel

end Concrete

open Concrete in
/-- The timestamp embedded in the final certificate is audited as the first entry of the log. -/
theorem audited_of_verifyInclusion_finalCert :
    ∃ tbs hash, tbsWithoutSctList finalCodec (encodeCertificate finalCert) = .ok tbs ∧
      issuerKeyHashFromCert sha256OfLog finalCodec (encodeCertificate issuerOfFinal) = .ok hash ∧
      Audited sha256OfLog (fun _ record => record = twoEntries) logKeyHash signedHead
        ⟨0, 2, [finalLeafHash]⟩ (twoEntries.leaves.headD [])
        (.precertEntry givenSct.timestampMs hash tbs givenSct.extensions) := by
  have audits := audited_of_verifyInclusion
    (signingVerifier_unforgeable headLog.logs [.treeHead signedHead]) signedHead_commits
    (show headLog.verifySth finalCodec logKeyHash signedHead = .ok usableLog by decide +kernel)
    (show headLog.verifyInclusion (merkleLeafHash sha256OfLog (twoEntries.leaves.headD []))
      ⟨0, 2, [finalLeafHash]⟩ twoEntriesRoot = .ok () by decide +kernel) givenSct
  apply audits.2
  decide +kernel

end Pkix.Ct
