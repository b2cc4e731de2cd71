import Pkix.Path.ConcreteCodec
import Pkix.Path.WalkFacts

/-! Which anchors the walk is tried from, and what a longer or reordered list changes. -/

namespace Pkix.Path

/-- The checks that come before any anchor is looked at. -/
structure PassesBeforeWalk (policy : ValidationPolicy) (chain : List Certificate)
    (anchors : List TrustAnchor) : Prop where
  inputs : checkInputs chain anchors = .ok ()
  oids : checkOidConsistency 0 chain = .ok ()
  short : checkMaxPathLen policy chain = .ok ()

/-- The walk from the anchor succeeds. -/
def WalkAccepts (der : DerCodec) (policy : ValidationPolicy) (verifier : SignatureVerifier)
    (chain : List Certificate) (anchor : TrustAnchor) : Prop :=
  ∃ leaf tree, chain.head? = some leaf ∧
    chainWalk der policy verifier chain leaf anchor = .ok tree

/-- A certificate whose issuer and subject carry one name, as at the root of a chain. -/
def NamesItself (cert : Certificate) : Prop :=
  namesMatch cert.tbsCertificate.issuer cert.tbsCertificate.subject = true

def HoldsKeyOf (anchor : TrustAnchor) (cert : Certificate) : Prop :=
  spkiKeyMatches anchor.subjectPublicKeyInfo cert.tbsCertificate.subjectPublicKeyInfo = true

theorem isCandidate_iff {lastCert : Certificate} {anchor : TrustAnchor} :
    isCandidate lastCert anchor = true ↔
      namesMatch anchor.subject lastCert.tbsCertificate.issuer = true ∧
      (NamesItself lastCert → HoldsKeyOf anchor lastCert) := by
  unfold isCandidate NamesItself HoldsKeyOf
  rw [Bool.and_eq_true, Bool.or_eq_true, Bool.not_eq_true', imp_iff_not_or, Bool.not_eq_true]

section Choice

variable {der : DerCodec} {policy : ValidationPolicy} {verifier : SignatureVerifier}
variable {chain : List Certificate} {anchors others : List TrustAnchor}

/-- Acceptance is the walk from some anchor of the list that passes both filters. -/
theorem validatePath_accepts_iff_candidate :
    (∃ path, validatePath der policy verifier chain anchors = .ok path) ↔
      PassesBeforeWalk policy chain anchors ∧
      ∃ lastCert, chain.getLast? = some lastCert ∧
        ∃ anchor ∈ anchors,
          namesMatch anchor.subject lastCert.tbsCertificate.issuer = true ∧
          (NamesItself lastCert → HoldsKeyOf anchor lastCert) ∧
          WalkAccepts der policy verifier chain anchor := by
  rw [validatePath_accepts_iff]
  constructor
  · intro accepted
    rcases accepted with ⟨inputs, oids, short, leaf, lastCert, first, last, anchor, member,
      candidate, tree, walked⟩
    rcases isCandidate_iff.mp candidate with ⟨named, keyed⟩
    exact ⟨⟨inputs, oids, short⟩, lastCert, last, anchor, member, named, keyed, leaf, tree, first,
      walked⟩
  · intro accepted
    rcases accepted with ⟨before, lastCert, last, anchor, member, named, keyed, leaf, tree, first,
      walked⟩
    exact ⟨before.inputs, before.oids, before.short, leaf, lastCert, first, last, anchor, member,
      isCandidate_iff.mpr ⟨named, keyed⟩, tree, walked⟩

theorem checkInputs_mono (checked : checkInputs chain anchors = .ok ())
    (within : ∀ anchor ∈ anchors, anchor ∈ others) : checkInputs chain others = .ok () := by
  unfold checkInputs at checked ⊢
  cases anchors with
  | nil => simp at checked
  | cons anchor rest =>
      have present : others.isEmpty = false := by
        rw [List.isEmpty_eq_false_iff_exists_mem]
        exact ⟨anchor, within anchor List.mem_cons_self⟩
      simpa [present] using checked

theorem PassesBeforeWalk.mono (before : PassesBeforeWalk policy chain anchors)
    (within : ∀ anchor ∈ anchors, anchor ∈ others) : PassesBeforeWalk policy chain others :=
  ⟨checkInputs_mono before.inputs within, before.oids, before.short⟩

/-- A list that holds every anchor of another accepts what that one accepts. -/
theorem validatePath_accepts_mono (within : ∀ anchor ∈ anchors, anchor ∈ others)
    (accepted : ∃ path, validatePath der policy verifier chain anchors = .ok path) :
    ∃ path, validatePath der policy verifier chain others = .ok path := by
  rcases validatePath_accepts_iff_candidate.mp accepted with
    ⟨before, lastCert, last, anchor, member, candidate⟩
  exact validatePath_accepts_iff_candidate.mpr
    ⟨before.mono within, lastCert, last, anchor, within anchor member, candidate⟩

/-- Without an anchor that passes both filters no walk is tried. -/
theorem validatePath_no_candidate {lastCert : Certificate}
    (before : PassesBeforeWalk policy chain anchors) (last : chain.getLast? = some lastCert)
    (filtered : ∀ anchor ∈ anchors, isCandidate lastCert anchor = false) :
    validatePath der policy verifier chain anchors = .error .noTrustedPath := by
  cases first : chain.head? with
  | none =>
      rw [List.head?_eq_none_iff] at first
      subst first
      cases last
  | some leaf =>
      rw [validatePath_eq_tryAnchors before.inputs before.oids before.short first last,
        tryAnchors_error_iff]
      have none_left : lastCandidate lastCert anchors = none := by
        unfold lastCandidate
        rw [List.getLast?_eq_none_iff, List.filter_eq_nil_iff]
        intro anchor member passes
        rw [filtered anchor member] at passes
        cases passes
      rw [none_left]
      refine ⟨?_, rfl⟩
      intro anchor member passes
      rw [filtered anchor member] at passes
      cases passes

end Choice

/-- An anchor of the last certificate's issuer name from which every check succeeds is
found, wherever it stands, provided it holds the last certificate's own key when that
certificate is self-issued; reordering the anchors or adding some keeps a chain
accepted; and a self-issued last certificate with a key that no anchor of its name
holds ends in the error of an untrusted path, whatever signed it. -/
theorem validatePath_anchor_choice (der : DerCodec) (policy : ValidationPolicy)
    (verifier : SignatureVerifier) (chain : List Certificate) (anchors : List TrustAnchor)
    (lastCert : Certificate) (before : PassesBeforeWalk policy chain anchors)
    (last : chain.getLast? = some lastCert) :
    (∀ anchor ∈ anchors, namesMatch anchor.subject lastCert.tbsCertificate.issuer = true →
      (NamesItself lastCert → HoldsKeyOf anchor lastCert) →
      WalkAccepts der policy verifier chain anchor →
      ∃ path, validatePath der policy verifier chain anchors = .ok path) ∧
    (∀ others, (∀ anchor ∈ anchors, anchor ∈ others) →
      (∃ path, validatePath der policy verifier chain anchors = .ok path) →
      ∃ path, validatePath der policy verifier chain others = .ok path) ∧
    (NamesItself lastCert →
      (∀ anchor ∈ anchors, namesMatch anchor.subject lastCert.tbsCertificate.issuer = true →
        ¬HoldsKeyOf anchor lastCert) →
      validatePath der policy verifier chain anchors = .error .noTrustedPath) := by
  refine ⟨?_, ?_, ?_⟩
  · intro anchor member named keyed walked
    exact validatePath_accepts_iff_candidate.mpr
      ⟨before, lastCert, last, anchor, member, named, keyed, walked⟩
  · intro others within accepted
    exact validatePath_accepts_mono within accepted
  · intro itself unheld
    apply validatePath_no_candidate before last
    intro anchor member
    apply Bool.eq_false_iff.mpr
    intro candidate
    rcases isCandidate_iff.mp candidate with ⟨named, keyed⟩
    exact unheld anchor member named (keyed itself)

section RolloverExample

open Concrete

/-- The root's new key, signed with its old one. -/
private def newWithOld : Certificate :=
  issue 1 (commonName [65]) (commonName [65]) [1, 2, 3] [9] [caExtension]

private def rolledOver : List Certificate :=
  [issue 2 (commonName [65]) (commonName [67]) [9] [6] [], newWithOld]

private def newAnchor : TrustAnchor := anchorNamed (commonName [65]) [9] none

private def oldAnchor : TrustAnchor := anchorNamed (commonName [65]) [1, 2, 3] none

private def rolloverCodec : DerCodec := tableCodec { basicConstraints := caTable }

/-- The old root kept in the chain, under an anchor with its key. -/
private def underOld : List Certificate :=
  [issue 2 (commonName [65]) (commonName [67]) [1, 2, 3] [6] [],
   issue 1 (commonName [65]) (commonName [65]) [1, 2, 3] [1, 2, 3] [caExtension]]

theorem validatePath_anchor_choice_example :
    (∃ path, validatePath rolloverCodec (.new 1800000000) keyCopyVerifier underOld
      [newAnchor, oldAnchor] = .ok path) ∧
    validatePath rolloverCodec (.new 1800000000) keyCopyVerifier rolledOver [oldAnchor] =
      .error .noTrustedPath := by
  have kept := validatePath_anchor_choice rolloverCodec (.new 1800000000) keyCopyVerifier underOld
    [newAnchor, oldAnchor] _ ⟨by decide +kernel, by decide +kernel, by decide +kernel⟩ rfl
  have rolled := validatePath_anchor_choice rolloverCodec (.new 1800000000) keyCopyVerifier
    rolledOver [oldAnchor] newWithOld ⟨by decide +kernel, by decide +kernel, by decide +kernel⟩ rfl
  have walked : WalkAccepts rolloverCodec (.new 1800000000) keyCopyVerifier underOld oldAnchor := by
    rcases (ok_of_isSome (by decide +kernel) : ∃ tree, chainWalk rolloverCodec (.new 1800000000)
      keyCopyVerifier underOld (issue 2 (commonName [65]) (commonName [67]) [1, 2, 3] [6] [])
      oldAnchor = .ok tree) with ⟨tree, succeeded⟩
    exact ⟨_, tree, rfl, succeeded⟩
  refine ⟨?_, ?_⟩
  · apply kept.1 oldAnchor (by simp) (by decide +kernel) ?_ walked
    intro _
    show spkiKeyMatches _ _ = true
    decide +kernel
  · apply rolled.2.2
    · show namesMatch _ _ = true
      decide +kernel
    · intro anchor member _ held
      rw [List.mem_singleton.mp member] at held
      have differ : spkiKeyMatches oldAnchor.subjectPublicKeyInfo
          newWithOld.tbsCertificate.subjectPublicKeyInfo = false := by
        decide +kernel
      exact absurd held (by rw [HoldsKeyOf, differ]; exact Bool.false_ne_true)

/-- A rollover certificate under the old anchor passes the walk and is still rejected. -/
theorem validatePath_rollover_rejected :
    ¬∀ (der : DerCodec) (policy : ValidationPolicy) (verifier : SignatureVerifier)
        (chain : List Certificate) (anchors : List TrustAnchor) (lastCert : Certificate)
        (anchor : TrustAnchor),
      PassesBeforeWalk policy chain anchors → chain.getLast? = some lastCert →
      anchor ∈ anchors → namesMatch anchor.subject lastCert.tbsCertificate.issuer = true →
      WalkAccepts der policy verifier chain anchor →
      ∃ path, validatePath der policy verifier chain anchors = .ok path := by
  intro complete
  have walked : WalkAccepts rolloverCodec (.new 1800000000) keyCopyVerifier rolledOver
      oldAnchor := by
    rcases (ok_of_isSome (by decide +kernel) : ∃ tree, chainWalk rolloverCodec (.new 1800000000)
      keyCopyVerifier rolledOver (issue 2 (commonName [65]) (commonName [67]) [9] [6] [])
      oldAnchor = .ok tree) with ⟨tree, succeeded⟩
    exact ⟨_, tree, rfl, succeeded⟩
  rcases complete rolloverCodec (.new 1800000000) keyCopyVerifier rolledOver [oldAnchor] newWithOld
    oldAnchor ⟨by decide +kernel, by decide +kernel, by decide +kernel⟩ rfl
    List.mem_cons_self (by decide +kernel) walked with ⟨path, accepted⟩
  have rejected : (validatePath rolloverCodec (.new 1800000000) keyCopyVerifier rolledOver
      [oldAnchor]).toOption.isSome = false := by
    decide +kernel
  rw [accepted] at rejected
  cases rejected

end RolloverExample

end Pkix.Path
