import Mathlib.Data.Nat.Size
import Pkix.Lib.MerkleTree
import Pkix.Lib.Walk
import Pkix.Path.Asn1

/-! Merkle inclusion proofs of a certificate transparency log: the verifier's loop, and the
trees by whose recursion it accepts. -/

namespace Pkix.Ct

open Pkix.Path MerkleTree

inductive Error
  | noScts
  | invalidSignature
  | parseError
  | unsupportedVersion (version : UInt8)
  | truncatedOrTrailing
  | unknownLog
  | unsupportedSignatureAlgorithm (hashAlg sigAlg : UInt8)
  | logKeyMalformed
  | sctTimestampOutsideLogWindow
  | certDerTooLong
  | leafMissingSctList
  | merkleProofInvalid
  | merkleProofMalformed
  deriving DecidableEq, Repr

abbrev Result (α : Type) := Except Error α

abbrev Digest := { octets : Bytes // octets.length = 32 }

structure MerkleAuditPath where
  leafIndex : UInt64
  treeSize : UInt64
  auditPath : List Digest
  deriving DecidableEq

section Hashes

variable (sha256 : Bytes → Digest)

def innerInput (left right : Digest) : Bytes := 0x01 :: (left.val ++ right.val)

def innerHash (left right : Digest) : Digest := sha256 (innerInput left right)

def merkleLeafHash (leafBytes : Bytes) : Digest := sha256 (0x00 :: leafBytes)

/-- The Merkle Tree Hash of a list of entries. -/
def merkleTreeHash (entries : List Bytes) : Digest :=
  treeRoot (innerHash sha256) (sha256 []) (entries.map (merkleLeafHash sha256))

/-- The audit path of the entry at an index. -/
def merkleAuditPath (index : Nat) (entries : List Bytes) : List Digest :=
  auditPath (innerHash sha256) (sha256 []) index (entries.map (merkleLeafHash sha256))

end Hashes

/-- Of a 64-bit value. -/
def leadingZeros (value : Nat) : Nat := 64 - value.size

def maxPathLen (treeSize : Nat) : Nat :=
  if treeSize ≤ 1 then 0 else 64 - leadingZeros (treeSize - 1)

/-- The shifts that skip the levels on which a last node has no sibling. -/
def rebalance (index last : Nat) : Nat × Nat :=
  if index % 2 = 0 ∧ index ≠ 0 then rebalance (index / 2) (last / 2) else (index, last)
termination_by index
decreasing_by omega

section Verify

variable (sha256 : Bytes → Digest)

/-- The loop over the path, with the index and the last index of the level. -/
def foldAuditPath : (index last : Nat) → (node : Digest) → List Digest → Result (Nat × Digest)
  | _, last, node, [] => .ok (last, node)
  | index, last, node, sibling :: path =>
      if last = 0 then .error .merkleProofMalformed
      else if index % 2 = 1 ∨ index = last then
        foldAuditPath ((rebalance index last).1 / 2) ((rebalance index last).2 / 2)
          (innerHash sha256 sibling node) path
      else foldAuditPath (index / 2) (last / 2) (innerHash sha256 node sibling) path

def verifyInclusionInner (leafHash : Digest) (proof : MerkleAuditPath) (expectedRoot : Digest) :
    Result Unit :=
  if proof.treeSize = 0 then .error .merkleProofMalformed
  else if proof.treeSize ≤ proof.leafIndex then .error .merkleProofInvalid
  else if maxPathLen proof.treeSize.toNat < proof.auditPath.length then
    .error .merkleProofMalformed
  else do
    let reached ← foldAuditPath sha256 proof.leafIndex.toNat (proof.treeSize.toNat - 1) leafHash
      proof.auditPath
    if reached.1 ≠ 0 then .error .merkleProofMalformed
    else if reached.2 ≠ expectedRoot then .error .merkleProofInvalid
    else .ok ()

end Verify

section Levels

variable {index last : Nat}

theorem rebalance_le (inRange : index ≤ last) :
    (rebalance index last).1 ≤ (rebalance index last).2 := by
  fun_induction rebalance index last with
  | case1 index last _ ih => exact ih (Nat.div_le_div_right inRange)
  | case2 => exact inRange

/-- The levels skipped do not change the sides. -/
theorem sides_rebalance (inRange : index ≤ last) (above : 0 < last)
    (onRight : index % 2 = 1 ∨ index = last) :
    sides (last + 1) index =
      true :: sides ((rebalance index last).2 / 2 + 1) ((rebalance index last).1 / 2) := by
  fun_induction rebalance index last with
  | case1 index last skipped ih =>
      have final : index = last := by omega
      have halved : (last + 1 + 1) / 2 = last / 2 + 1 := by omega
      rw [sides_single (by omega) skipped.1, halved]
      exact ih (by omega) (by omega) (.inr (by omega))
  | case2 index last odd =>
      have halved : (last + 1 + 1) / 2 = last / 2 + 1 := by omega
      have isOdd : index % 2 = 1 := by omega
      rw [sides_pair (by omega) (.inl isOdd), halved, isOdd]
      rfl

theorem sides_even (inRange : index < last) (even : index % 2 = 0) :
    sides (last + 1) index = false :: sides (last / 2 + 1) (index / 2) := by
  have halved : (last + 1 + 1) / 2 = last / 2 + 1 := by omega
  rw [sides_pair (by omega) (.inr (by omega)), halved, even]
  rfl

theorem sides_eq_nil_iff (inRange : index ≤ last) : sides (last + 1) index = [] ↔ last = 0 := by
  constructor
  · intro empty
    apply Nat.eq_zero_of_not_pos
    intro above
    rcases Decidable.em (index % 2 = 1 ∨ index = last) with onRight | onLeft
    · rw [sides_rebalance inRange above onRight] at empty
      cases empty
    · rw [sides_even (by omega) (by omega)] at empty
      cases empty
  · intro bottom
    subst bottom
    exact sides_small (by decide)

theorem le_pow_maxPathLen {treeSize : Nat} (fits : treeSize < 2 ^ 64) :
    treeSize ≤ 2 ^ maxPathLen treeSize := by
  unfold maxPathLen leadingZeros
  split
  · assumption
  · have low : (treeSize - 1).size ≤ 64 := Nat.size_le.mpr (by omega)
    have above := Nat.lt_size_self (treeSize - 1)
    rw [Nat.sub_sub_self low]
    omega

end Levels

section Acceptance

variable {sha256 : Bytes → Digest} {index last : Nat} {node root : Digest} {path : List Digest}

theorem foldAuditPath_ok_iff (inRange : index ≤ last) :
    foldAuditPath sha256 index last node path = .ok (0, root) ↔
      path.length = (sides (last + 1) index).length ∧
        climb (innerHash sha256) node (sides (last + 1) index) path = root := by
  induction path generalizing index last node with
  | nil =>
      have bottom : 0 = (sides (last + 1) index).length ↔ last = 0 := by
        rw [eq_comm, List.length_eq_zero_iff, sides_eq_nil_iff inRange]
      rw [foldAuditPath, List.length_nil, bottom, climb_nil]
      simp
  | cons sibling path ih =>
      unfold foldAuditPath
      split
      · next bottom =>
          subst bottom
          rw [sides_small (by decide)]
          simp
      · next above =>
          split
          · next onRight =>
              rw [sides_rebalance inRange (Nat.pos_of_ne_zero above) onRight,
                ih (Nat.div_le_div_right (rebalance_le inRange))]
              simp [climb, ordered]
          · next onLeft =>
              rw [sides_even (by omega) (by omega), ih (Nat.div_le_div_right inRange)]
              simp [climb, ordered]

theorem rootChecked_iff {folded : Result (Nat × Digest)} :
    (do
      let reached ← folded
      if reached.1 ≠ 0 then .error .merkleProofMalformed
      else if reached.2 ≠ root then .error .merkleProofInvalid
      else .ok ()) = (.ok () : Result Unit) ↔ folded = .ok (0, root) := by
  rw [Walk.bind_ok]
  constructor
  · intro ⟨reached, finished, checked⟩
    split at checked
    · cases checked
    · next atTop =>
        split at checked
        · cases checked
        · next same =>
            rw [finished, ← not_not.mp atTop, ← not_not.mp same]
  · intro finished
    exact ⟨_, finished, by simp⟩

theorem verifyInclusionInner_ok_iff {leafHash expectedRoot : Digest} {proof : MerkleAuditPath} :
    verifyInclusionInner sha256 leafHash proof expectedRoot = .ok () ↔
      proof.leafIndex < proof.treeSize ∧
        rebuild (innerHash sha256) proof.treeSize.toNat proof.leafIndex.toNat leafHash
          proof.auditPath = some expectedRoot := by
  have sized := proof.treeSize.toNat_lt
  rw [UInt64.lt_iff_toNat_lt, rebuild_eq_some_iff]
  unfold verifyInclusionInner
  split
  · next none_ =>
      simp [none_]
  · next some_ =>
      have positive : 0 < proof.treeSize.toNat := by
        apply Nat.pos_of_ne_zero
        intro zero
        exact some_ (UInt64.toNat_inj.mp zero)
      split
      · next outside =>
          rw [UInt64.le_iff_toNat_le] at outside
          constructor
          · intro accepted
            cases accepted
          · intro ⟨inside, _⟩
            omega
      · next inside =>
          rw [UInt64.le_iff_toNat_le, Nat.not_le] at inside
          have lastIndex : proof.treeSize.toNat - 1 + 1 = proof.treeSize.toNat := by omega
          split
          · next long =>
              have short : (sides proof.treeSize.toNat proof.leafIndex.toNat).length ≤ _ :=
                length_sides_le (le_pow_maxPathLen sized)
              constructor
              · intro accepted
                cases accepted
              · intro ⟨_, sameLength, _⟩
                omega
          · have folded := @foldAuditPath_ok_iff sha256 proof.leafIndex.toNat
              (proof.treeSize.toNat - 1) leafHash expectedRoot proof.auditPath (by omega)
            rw [lastIndex] at folded
            rw [rootChecked_iff, folded]
            exact (and_iff_right inside).symm

end Acceptance

section Binding

variable {sha256 : Bytes → Digest} {leafHash root : Digest} {proof : MerkleAuditPath}

/-- The octets hashed while a path is folded. -/
def hashedOctets (sha256 : Bytes → Digest) (size index : Nat) (leafHash : Digest)
    (path : List Digest) : List Bytes :=
  (climbed (innerHash sha256) leafHash (sides size index) path).map
    (fun pair => innerInput pair.1 pair.2)

theorem innerInput_inj {left right left' right' : Digest}
    (same : innerInput left right = innerInput left' right') : left = left' ∧ right = right' := by
  have sameLength : left.val.length = left'.val.length := left.2.trans left'.2.symm
  rcases List.append_inj (List.cons.inj same).2 sameLength with ⟨sameLeft, sameRight⟩
  exact ⟨Subtype.ext sameLeft, Subtype.ext sameRight⟩

theorem rebuild_inj {size index : Nat} {leafHash' : Digest} {path path' : List Digest}
    (injective : Set.InjOn sha256 { octets | octets ∈ hashedOctets sha256 size index leafHash path ∨
      octets ∈ hashedOctets sha256 size index leafHash' path' })
    (rebuilt : rebuild (innerHash sha256) size index leafHash path = some root)
    (rebuilt' : rebuild (innerHash sha256) size index leafHash' path' = some root) :
    leafHash = leafHash' ∧ path = path' := by
  rw [rebuild_eq_some_iff] at rebuilt rebuilt'
  refine climb_inj rebuilt.1 rebuilt'.1 ?_ (rebuilt.2.trans rebuilt'.2.symm)
  intro pair member pair' member' collide
  have hashed : ∀ pair : Digest × Digest,
      (pair ∈ climbed (innerHash sha256) leafHash (sides size index) path ∨
        pair ∈ climbed (innerHash sha256) leafHash' (sides size index) path') →
      innerInput pair.1 pair.2 ∈ hashedOctets sha256 size index leafHash path ∨
        innerInput pair.1 pair.2 ∈ hashedOctets sha256 size index leafHash' path' :=
    fun pair joined => joined.imp (fun listed => List.mem_map.mpr ⟨pair, listed, rfl⟩)
      (fun listed => List.mem_map.mpr ⟨pair, listed, rfl⟩)
  have sameInput := injective (hashed pair member) (hashed pair' member') collide
  rcases innerInput_inj sameInput with ⟨first, second⟩
  exact Prod.ext first second

theorem merkleAuditPath_rebuilds {entries : List Bytes} {entry : Bytes} {index : Nat}
    (located : entries[index]? = some entry) :
    rebuild (innerHash sha256) entries.length index (merkleLeafHash sha256 entry)
      (merkleAuditPath sha256 index entries) = some (merkleTreeHash sha256 entries) := by
  have leaf : (entries.map (merkleLeafHash sha256))[index]? = some (merkleLeafHash sha256 entry) := by
    rw [List.getElem?_map, located]
    rfl
  have rebuilt : rebuild (innerHash sha256) (entries.map (merkleLeafHash sha256)).length index
      (merkleLeafHash sha256 entry) (merkleAuditPath sha256 index entries) =
        some (merkleTreeHash sha256 entries) := rebuild_auditPath leaf
  rw [List.length_map] at rebuilt
  exact rebuilt

/-- A proof is accepted exactly when the recursion of the tree rebuilds the root from it. The
audit path of an entry is accepted, no path of another length is, and without colliding
octets no other leaf and path under the root of the entries. -/
theorem verifyInclusionInner_rfc6962 (sha256 : Bytes → Digest) (leafHash root : Digest)
    (proof : MerkleAuditPath) :
    (verifyInclusionInner sha256 leafHash proof root = .ok () ↔
      proof.leafIndex < proof.treeSize ∧
        rebuild (innerHash sha256) proof.treeSize.toNat proof.leafIndex.toNat leafHash
          proof.auditPath = some root) ∧
    ∀ entries entry, entries.length = proof.treeSize.toNat →
      entries[proof.leafIndex.toNat]? = some entry →
      verifyInclusionInner sha256 (merkleLeafHash sha256 entry)
        { proof with auditPath := merkleAuditPath sha256 proof.leafIndex.toNat entries }
        (merkleTreeHash sha256 entries) = .ok () ∧
      (verifyInclusionInner sha256 leafHash proof root = .ok () →
        proof.auditPath.length =
          (merkleAuditPath sha256 proof.leafIndex.toNat entries).length) ∧
      (Set.InjOn sha256 { octets |
          octets ∈ hashedOctets sha256 entries.length proof.leafIndex.toNat leafHash
            proof.auditPath ∨
          octets ∈ hashedOctets sha256 entries.length proof.leafIndex.toNat
            (merkleLeafHash sha256 entry)
            (merkleAuditPath sha256 proof.leafIndex.toNat entries) } →
        verifyInclusionInner sha256 leafHash proof (merkleTreeHash sha256 entries) = .ok () →
        leafHash = merkleLeafHash sha256 entry ∧
          proof.auditPath = merkleAuditPath sha256 proof.leafIndex.toNat entries) := by
  refine ⟨verifyInclusionInner_ok_iff, ?_⟩
  intro entries entry sized located
  have inside : proof.leafIndex < proof.treeSize := by
    rw [UInt64.lt_iff_toNat_lt, ← sized]
    exact (List.getElem?_eq_some_iff.mp located).1
  have rebuilt : rebuild (innerHash sha256) entries.length proof.leafIndex.toNat
      (merkleLeafHash sha256 entry) (merkleAuditPath sha256 proof.leafIndex.toNat entries) =
        some (merkleTreeHash sha256 entries) := merkleAuditPath_rebuilds located
  refine ⟨?_, ?_, ?_⟩
  · rw [sized] at rebuilt
    exact verifyInclusionInner_ok_iff.mpr ⟨inside, rebuilt⟩
  · intro accepted
    have other := (verifyInclusionInner_ok_iff.mp accepted).2
    rw [← sized, rebuild_eq_some_iff] at other
    rw [rebuild_eq_some_iff] at rebuilt
    exact other.1.trans rebuilt.1.symm
  · intro injective accepted
    have other := (verifyInclusionInner_ok_iff.mp accepted).2
    rw [← sized] at other
    exact rebuild_inj injective other rebuilt

end Binding

namespace Concrete

/-- Three entries: none, 0x00 and 0x10. -/
def threeEntries : List Bytes := [[], [0x00], [0x10]]

def firstLeaf : Digest :=
  ⟨[0x6E, 0x34, 0x0B, 0x9C, 0xFF, 0xB3, 0x7A, 0x98, 0x9C, 0xA5, 0x44,
    0xE6, 0xBB, 0x78, 0x0A, 0x2C, 0x78, 0x90, 0x1D, 0x3F, 0xB3, 0x37,
    0x38, 0x76, 0x85, 0x11, 0xA3, 0x06, 0x17, 0xAF, 0xA0, 0x1D], rfl⟩

def secondLeaf : Digest :=
  ⟨[0x96, 0xA2, 0x96, 0xD2, 0x24, 0xF2, 0x85, 0xC6, 0x7B, 0xEE, 0x93,
    0xC3, 0x0F, 0x8A, 0x30, 0x91, 0x57, 0xF0, 0xDA, 0xA3, 0x5D, 0xC5,
    0xB8, 0x7E, 0x41, 0x0B, 0x78, 0x63, 0x0A, 0x09, 0xCF, 0xC7], rfl⟩

def thirdLeaf : Digest :=
  ⟨[0x02, 0x98, 0xD1, 0x22, 0x90, 0x6D, 0xCF, 0xC1, 0x08, 0x92, 0xCB,
    0x53, 0xA7, 0x39, 0x92, 0xFC, 0x5B, 0x9F, 0x49, 0x3E, 0xA4, 0xC9,
    0xBA, 0xDB, 0x27, 0xB7, 0x91, 0xB4, 0x12, 0x7A, 0x7F, 0xE7], rfl⟩

def lowerNode : Digest :=
  ⟨[0xFA, 0xC5, 0x42, 0x03, 0xE7, 0xCC, 0x69, 0x6C, 0xF0, 0xDF, 0xCB,
    0x42, 0xC9, 0x2A, 0x1D, 0x9D, 0xBA, 0xF7, 0x0A, 0xD9, 0xE6, 0x21,
    0xF4, 0xBD, 0x8D, 0x98, 0x66, 0x2F, 0x00, 0xE3, 0xC1, 0x25], rfl⟩

def threeRoot : Digest :=
  ⟨[0xAE, 0xB6, 0xBC, 0xFE, 0x27, 0x4B, 0x70, 0xA1, 0x4F, 0xB0, 0x67,
    0xA5, 0xE5, 0x57, 0x82, 0x64, 0xDB, 0x0F, 0xA9, 0xB5, 0x1A, 0xF5,
    0xE0, 0xBA, 0x15, 0x91, 0x58, 0xF3, 0x29, 0xE0, 0x6E, 0x77], rfl⟩

/-- SHA-256 on the octets that the tree of the three entries hashes. -/
def sha256Of (octets : Bytes) : Digest :=
  if octets = [0x00] then firstLeaf
  else if octets = [0x00, 0x00] then secondLeaf
  else if octets = [0x00, 0x10] then thirdLeaf
  else if octets = innerInput firstLeaf secondLeaf then lowerNode
  else if octets = innerInput lowerNode thirdLeaf then threeRoot
  else ⟨List.replicate 32 0, rfl⟩

/-- The third leaf is alone on its level and proved by the node on its left. -/
theorem threeEntries_included :
    verifyInclusionInner sha256Of thirdLeaf ⟨2, 3, [lowerNode]⟩ threeRoot = .ok () := by
  have path : merkleAuditPath sha256Of 2 threeEntries = [lowerNode] := by decide +kernel
  have hashed : merkleTreeHash sha256Of threeEntries = threeRoot := by decide +kernel
  have accepted := ((verifyInclusionInner_rfc6962 sha256Of thirdLeaf threeRoot
    ⟨2, 3, [lowerNode]⟩).2 threeEntries [0x10] rfl rfl).1
  rw [hashed] at accepted
  change verifyInclusionInner sha256Of thirdLeaf
    ⟨2, 3, merkleAuditPath sha256Of 2 threeEntries⟩ threeRoot = .ok () at accepted
  rw [path] at accepted
  exact accepted

end Concrete

end Pkix.Ct
