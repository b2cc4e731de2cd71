import Pkix.Path.ConcreteCodec
import Pkix.Path.NameConstraintRules

/-! Name constraints over a validated chain: no exclusion is lost, and a permitted
list is lost only when a CA restarts a form whose running list is empty. -/

namespace Pkix.Path

theorem validatePath_nameWalk {der : DerCodec} {policy : ValidationPolicy}
    {verifier : SignatureVerifier} {chain : List Certificate} {anchors : List TrustAnchor}
    {path : ValidatedPath}
    (accepted : validatePath der policy verifier chain anchors = .ok path) :
    ∃ anchor final, anchors[path.anchorIndex]? = some anchor ∧
      nameWalk der chain anchor = .ok final := by
  obtain ⟨leaf, lastCert, anchor, tree, _, _, selected, _, walked, _⟩ := validatePath_ok accepted
  obtain ⟨⟨_, final, named⟩, _⟩ := chainWalk_accepts_iff.mp walked
  exact ⟨anchor, final, selected, named⟩

/-- Accumulating exclusions covers what the two lists cover together, and no name
of a checked certificate is covered by an exclusion made above it. -/
theorem validatePath_excluded_never_lost (der : DerCodec) (policy : ValidationPolicy)
    (verifier : SignatureVerifier) (chain : List Certificate) (anchors : List TrustAnchor)
    (path : ValidatedPath)
    (accepted : validatePath der policy verifier chain anchors = .ok path) :
    (∀ excluded entries name, covers (entries.foldl addExcluded excluded) name =
      (covers excluded name || covers entries name)) ∧
    ∃ anchor, anchors[path.anchorIndex]? = some anchor ∧
      ∀ index cert, chain[index]? = some cert → IsChecked index cert →
        ∀ nc ∈ constraintsIn der anchor (chain.drop (index + 1)), ∀ entry ∈ nc.excluded,
          ∀ name ∈ checkedNames der cert, nameMatchesSubtree name entry = false := by
  refine ⟨fun excluded entries name => covers_foldl_addExcluded excluded entries name, ?_⟩
  obtain ⟨anchor, final, selected, named⟩ := validatePath_nameWalk accepted
  refine ⟨anchor, selected, ?_⟩
  intro index cert located checked nc above entry member name presented
  have passed := nameWalk_checks named located checked
  have clear := (checkNameConstraints_ok_iff.mp passed).1 name presented
  rw [Bool.eq_false_iff] at clear ⊢
  intro matched
  apply clear
  rw [namesUnder_covers_excluded]
  exact ⟨nc, above, covers_iff.mpr ⟨entry, member, matched⟩⟩

section ExcludedExample

open Concrete

private def badOrg : Bytes := [98, 97, 100, 46, 111, 114, 103]
private def okOrg : Bytes := [111, 107, 46, 111, 114, 103]

private def excludingCodec : DerCodec :=
  tableCodec
    { basicConstraints := caTable
      subjectAltName := [(dnsSanContent okOrg, [dnsName okOrg (by decide +kernel)])]
      nameConstraints :=
        [(excludedDnsContent badOrg, ⟨none, some [subtree (dnsName badOrg (by decide +kernel))]⟩)] }

private def excludingChain : List Certificate :=
  [issue 2 (commonName [66]) (commonName [67]) [4, 5] [6] [sanExtension (dnsSanContent okOrg)],
   issue 1 (commonName [65]) (commonName [66]) [1, 2, 3] [4, 5]
    [caExtension, ncExtension (excludedDnsContent badOrg)]]

private def excludingAnchors : List TrustAnchor := [anchorNamed (commonName [65]) [1, 2, 3] none]

theorem validatePath_excluded_never_lost_example :
    ∃ path anchor, validatePath excludingCodec (.new 1800000000) keyCopyVerifier excludingChain
        excludingAnchors = .ok path ∧
      excludingAnchors[path.anchorIndex]? = some anchor ∧
      ∀ index cert, excludingChain[index]? = some cert → IsChecked index cert →
        ∀ nc ∈ constraintsIn excludingCodec anchor (excludingChain.drop (index + 1)),
          ∀ entry ∈ nc.excluded, ∀ name ∈ checkedNames excludingCodec cert,
            nameMatchesSubtree name entry = false := by
  obtain ⟨path, validated⟩ := ok_of_isSome (by decide +kernel :
    (validatePath excludingCodec (.new 1800000000) keyCopyVerifier excludingChain
      excludingAnchors).toOption.isSome = true)
  obtain ⟨_, anchor, selected, clear⟩ := validatePath_excluded_never_lost _ _ _ _ _ _ validated
  exact ⟨path, anchor, validated, selected, clear⟩

end ExcludedExample

/-- The form of the name is constrained, but the running list has no entry of it. -/
def FormEmptied (names : NameConstraintState) (name : GeneralName) : Prop :=
  names.ncConstrainedTypes.intersects (nameTypeBit name) = true ∧
    listsForm (names.ncPermitted.getD []) name = false

/-- Every name of a checked certificate is inside the permitted list of each
extension above it that lists its form. -/
def PermittedRespected (der : DerCodec) (chain : List Certificate) (anchor : TrustAnchor) :
    Prop :=
  ∀ index cert, chain[index]? = some cert → IsChecked index cert →
    ∀ name ∈ checkedNames der cert, ∀ nc ∈ constraintsIn der anchor (chain.drop (index + 1)),
      listsForm nc.permitted name = true → covers nc.permitted name = true

/-- Where a CA lists a form that the CAs above have emptied, the names of the form
checked below it are inside the lists from above it all the same. -/
def RestartHarmless (der : DerCodec) (chain : List Certificate) (anchor : TrustAnchor) : Prop :=
  ∀ position ca nc, chain[position]? = some ca → caConstraints der ca = some nc →
    ∀ index cert, index < position → chain[index]? = some cert → IsChecked index cert →
      ∀ name ∈ checkedNames der cert, listsForm nc.permitted name = true →
        FormEmptied (namesUnder der anchor (chain.drop (position + 1))) name →
        ∀ higher ∈ constraintsIn der anchor (chain.drop (position + 1)),
          listsForm higher.permitted name = true → covers higher.permitted name = true

section Permitted

variable {der : DerCodec} {anchor : TrustAnchor} {name : GeneralName}

/-- The induction runs down the certificates above a checked name: a name inside the
running list is inside every list it was made from, except across a restart. -/
theorem covers_permitted_above (upper : List Certificate)
    (harmless : ∀ front ca rest nc, upper = front ++ ca :: rest →
      caConstraints der ca = some nc → listsForm nc.permitted name = true →
      FormEmptied (namesUnder der anchor rest) name →
      ∀ higher ∈ constraintsIn der anchor rest,
        listsForm higher.permitted name = true → covers higher.permitted name = true)
    (covered : covers ((namesUnder der anchor upper).ncPermitted.getD []) name = true) :
    ∀ nc ∈ constraintsIn der anchor upper,
      listsForm nc.permitted name = true → covers nc.permitted name = true := by
  induction upper with
  | nil =>
      intro nc member _
      have own : anchor.nameConstraints = some nc := by
        simpa [constraintsIn] using member
      simpa [namesUnder, initialNameConstraints, NameConstraints.permitted, own] using covered
  | cons cert upper ih =>
      have inherited := ih (fun front ca rest nc split =>
        harmless (cert :: front) ca rest nc (by rw [split, List.cons_append]))
      intro nc member listed
      rw [namesUnder_cons, constrain] at covered
      cases found : caConstraints der cert with
      | none =>
          rw [constraintsIn, List.filterMap_cons_none found] at member
          rw [found] at covered
          exact inherited covered nc member listed
      | some own =>
          rw [constraintsIn, List.filterMap_cons_some found, List.cons_append,
            List.mem_cons] at member
          simp only [found, updateNameConstraints_permitted] at covered
          cases entries : own.permittedSubtrees with
          | none =>
              have nothing : own.permitted = [] := by
                rw [NameConstraints.permitted, entries, Option.getD_none]
              rcases member with rfl | above
              · rw [nothing] at listed
                cases listed
              · apply inherited _ nc above listed
                cases kept : (namesUnder der anchor upper).ncPermitted <;>
                  simpa [entries, kept] using covered
          | some list =>
              have same : own.permitted = list := by
                rw [NameConstraints.permitted, entries, Option.getD_some]
              cases kept : (namesUnder der anchor upper).ncPermitted with
              | none =>
                  rw [entries, kept, Option.getD_some] at covered
                  rcases member with rfl | above
                  · rw [same]
                    exact covered
                  · have isSome := namesUnder_permitted_isSome upper ⟨nc, above, listed⟩
                    rw [kept] at isSome
                    cases isSome
              | some current =>
                  rw [entries, kept, Option.getD_some] at covered
                  obtain ⟨byCurrent, byList⟩ := covers_intersectPermitted covered
                  rcases member with rfl | above
                  · rw [same] at listed ⊢
                    exact byList.resolve_right (by rw [listed]; decide)
                  · rcases byCurrent with inside | emptied
                    · rw [kept, Option.getD_some] at inherited
                      exact inherited inside nc above listed
                    · have restarted : listsForm own.permitted name = true := by
                        rw [same]
                        exact (listsForm_intersectPermitted
                          (listsForm_of_covers covered)).resolve_left (by rw [emptied]; decide)
                      have constrained := (namesUnder_intersects upper).mpr ⟨nc, above, listed⟩
                      exact harmless [] cert upper own rfl found restarted
                        ⟨constrained, by rw [kept, Option.getD_some]; exact emptied⟩
                        nc above listed

theorem drop_split {chain front rest : List Certificate} {ca : Certificate} {start : Nat}
    (split : chain.drop start = front ++ ca :: rest) :
    chain[start + front.length]? = some ca ∧
      chain.drop (start + front.length + 1) = rest := by
  constructor
  · rw [← List.getElem?_drop, split, List.getElem?_append_right (Nat.le_refl _), Nat.sub_self]
    rfl
  · rw [Nat.add_assoc, ← List.drop_drop, split, ← List.drop_drop, List.drop_left]
    rfl

end Permitted

/-- For a validated chain, permitted lists are respected exactly when no restart of
an emptied form lets a name through. -/
theorem validatePath_permitted_respected_iff (der : DerCodec) (policy : ValidationPolicy)
    (verifier : SignatureVerifier) (chain : List Certificate) (anchors : List TrustAnchor)
    (path : ValidatedPath)
    (accepted : validatePath der policy verifier chain anchors = .ok path) :
    ∃ anchor, anchors[path.anchorIndex]? = some anchor ∧
      (PermittedRespected der chain anchor ↔ RestartHarmless der chain anchor) := by
  obtain ⟨anchor, final, selected, named⟩ := validatePath_nameWalk accepted
  refine ⟨anchor, selected, ?_, ?_⟩
  · intro respected position ca nc _ _ index cert below located checked name presented _ _
      higher above listed
    apply respected index cert located checked name presented higher _ listed
    have later : chain.drop (position + 1) <:+ chain.drop (index + 1) := by
      have cut : chain.drop (position + 1) = (chain.drop (index + 1)).drop (position - index) := by
        rw [List.drop_drop]
        congr 1
        omega
      rw [cut]
      exact List.drop_suffix _ _
    rcases List.mem_append.mp above with inCa | inAnchor
    · exact List.mem_append_left _ ((later.sublist.filterMap _).subset inCa)
    · exact List.mem_append_right _ inAnchor
  · intro harmless index cert located checked name presented nc above listed
    have passed := nameWalk_checks named located checked
    obtain ⟨_, permitted, _⟩ := checkNameConstraints_ok_iff.mp passed
    have constrained := (namesUnder_intersects _).mpr ⟨nc, above, listed⟩
    have isSome := namesUnder_permitted_isSome _ ⟨nc, above, listed⟩
    obtain ⟨list, current⟩ := Option.isSome_iff_exists.mp isSome
    have covered := checkPermittedNames_ok_iff.mp permitted list current name presented constrained
    refine covers_permitted_above (chain.drop (index + 1)) ?_ (by rw [current]; exact covered)
      nc above listed
    intro front ca rest own split found restarted emptied
    obtain ⟨position, remainder⟩ := drop_split split
    rw [← remainder] at emptied ⊢
    exact harmless (index + 1 + front.length) ca own position found index cert (by omega)
      located checked name presented restarted emptied

section WidenedExample

open Concrete

private def aOrg : Bytes := [97, 46, 111, 114, 103]
private def bOrg : Bytes := [98, 46, 111, 114, 103]
private def cOrg : Bytes := [99, 46, 111, 114, 103]

private def permitting (text : Bytes) (ascii : ∀ octet ∈ text, octet < 128) : NameConstraints :=
  ⟨some [subtree (dnsName text ascii)], none⟩

private def widenedCodec : DerCodec :=
  tableCodec
    { basicConstraints := caTable
      subjectAltName := [(dnsSanContent cOrg, [dnsName cOrg (by decide +kernel)])]
      nameConstraints :=
        [(permittedDnsContent aOrg, permitting aOrg (by decide +kernel)),
         (permittedDnsContent bOrg, permitting bOrg (by decide +kernel)),
         (permittedDnsContent cOrg, permitting cOrg (by decide +kernel))] }

private def widenedLeaf : Certificate :=
  issue 4 (commonName [68]) (commonName [69]) [7] [8] [sanExtension (dnsSanContent cOrg)]

/-- Permitted are a.org, then b.org, then c.org; the leaf is c.org. -/
private def widenedChain : List Certificate :=
  [widenedLeaf,
   issue 3 (commonName [67]) (commonName [68]) [6] [7]
    [caExtension, ncExtension (permittedDnsContent cOrg)],
   issue 2 (commonName [66]) (commonName [67]) [4, 5] [6]
    [caExtension, ncExtension (permittedDnsContent bOrg)],
   issue 1 (commonName [65]) (commonName [66]) [1, 2, 3] [4, 5]
    [caExtension, ncExtension (permittedDnsContent aOrg)]]

private def widenedAnchor : TrustAnchor := anchorNamed (commonName [65]) [1, 2, 3] none

private theorem widened_accepted :
    validatePath widenedCodec (.new 1800000000) keyCopyVerifier widenedChain [widenedAnchor] =
      .ok (validatedPath widenedChain widenedLeaf 0 none) := by
  decide +kernel

theorem validatePath_permitted_respected_iff_example :
    ∃ path anchor, validatePath widenedCodec (.new 1800000000) keyCopyVerifier widenedChain
        [widenedAnchor] = .ok path ∧
      [widenedAnchor][path.anchorIndex]? = some anchor ∧
      (PermittedRespected widenedCodec widenedChain anchor ↔
        RestartHarmless widenedCodec widenedChain anchor) := by
  obtain ⟨anchor, selected, exact_condition⟩ :=
    validatePath_permitted_respected_iff _ _ _ _ _ _ widened_accepted
  exact ⟨_, anchor, widened_accepted, selected, exact_condition⟩

theorem validatePath_permitted_widened :
    ¬ ∀ path, validatePath widenedCodec (.new 1800000000) keyCopyVerifier widenedChain
        [widenedAnchor] = .ok path →
      ∃ anchor, [widenedAnchor][path.anchorIndex]? = some anchor ∧
        PermittedRespected widenedCodec widenedChain anchor := by
  intro claimed
  obtain ⟨anchor, selected, respected⟩ := claimed _ widened_accepted
  cases Option.some.inj selected
  have inside := respected 0 widenedLeaf rfl (.inl rfl) (dnsName cOrg (by decide +kernel))
    (by decide +kernel) (permitting bOrg (by decide +kernel)) (by decide +kernel) (by decide +kernel)
  revert inside
  decide +kernel

end WidenedExample

end Pkix.Path
