import Mathlib.Data.List.Perm.Basic
import Pkix.Revocation.CrlChecker
import Pkix.Revocation.SignerChoice

/-! The search of a bundle in any order: it succeeds in every order, or in none, exactly
when no consistent choice of signer and parents can turn its success. -/

namespace Pkix.Revocation

open Pkix.Path
open Pkix.Choices

section Relabel

variable {der : CrlCodec} {bundle : List Slot} {label : Nat → Nat}

def relabel (label : Nat → Nat) (slot : Slot) : Slot := (slot.1, label slot.2)

/-- The new places tell the same slots apart. -/
def Distinguishes (label : Nat → Nat) (bundle : List Slot) : Prop :=
  ∀ slot ∈ bundle, ∀ other ∈ bundle, label slot.2 = label other.2 → slot.2 = other.2

theorem find?_relabel {test relabelled : Slot → Bool}
    (same : ∀ slot ∈ bundle, relabelled (relabel label slot) = test slot) :
    (bundle.map (relabel label)).find? relabelled =
      (bundle.find? test).map (relabel label) := by
  induction bundle with
  | nil => rfl
  | cons head rest ih =>
      have restSame := ih (fun slot member => same slot (List.mem_cons_of_mem head member))
      have headSame := same head List.mem_cons_self
      cases passes : test head with
      | true =>
          rw [passes] at headSame
          rw [List.map_cons, List.find?_cons_of_pos headSame, List.find?_cons_of_pos passes]
          rfl
      | false =>
          rw [passes] at headSame
          rw [List.map_cons, List.find?_cons_of_neg (by simp [headSame]),
            List.find?_cons_of_neg (by simp [passes]), restSame]

theorem isOther_relabel (distinguishes : Distinguishes label bundle) {slot candidate : Slot}
    (slotIn : slot ∈ bundle) (candidateIn : candidate ∈ bundle) :
    isOther (relabel label slot) (relabel label candidate) = isOther slot candidate := by
  by_cases same : candidate.2 = slot.2
  · simp [isOther, relabel, same]
  · have other : label candidate.2 ≠ label slot.2 := fun equal =>
      same (distinguishes candidate candidateIn slot slotIn equal)
    exact (bne_iff_ne.mpr other).trans (bne_iff_ne.mpr same).symm

theorem parentTest_relabel (distinguishes : Distinguishes label bundle) {slot candidate : Slot}
    (slotIn : slot ∈ bundle) (candidateIn : candidate ∈ bundle) :
    parentTest der (bundle.map (relabel label)) (relabel label slot) (relabel label candidate) =
      parentTest der bundle slot candidate := by
  have byKey : ∀ keyId, ∀ other ∈ bundle,
      keyTest der keyId (relabel label slot) (relabel label other) = keyTest der keyId slot other := by
    intro keyId other otherIn
    unfold keyTest
    rw [isOther_relabel distinguishes slotIn otherIn]
    rfl
  have byName : nameTest (relabel label slot) (relabel label candidate) =
      nameTest slot candidate := by
    unfold nameTest
    rw [isOther_relabel distinguishes slotIn candidateIn]
    rfl
  have any : ∀ keyId, (bundle.map (relabel label)).any (keyTest der keyId (relabel label slot)) =
      bundle.any (keyTest der keyId slot) := by
    intro keyId
    rw [List.any_map, Bool.eq_iff_iff, List.any_eq_true, List.any_eq_true]
    constructor
    · intro found
      rcases found with ⟨other, member, passes⟩
      rw [Function.comp_apply, byKey keyId other member] at passes
      exact ⟨other, member, passes⟩
    · intro found
      rcases found with ⟨other, member, passes⟩
      refine ⟨other, member, ?_⟩
      rw [Function.comp_apply, byKey keyId other member]
      exact passes
  have sameKeyId : certAuthorityKeyId der (relabel label slot).1 =
      certAuthorityKeyId der slot.1 := rfl
  unfold parentTest
  rw [sameKeyId]
  cases certAuthorityKeyId der slot.1 with
  | none => exact byName
  | some keyId =>
      dsimp only
      rw [any keyId]
      split
      · exact byKey keyId candidate candidateIn
      · exact byName

theorem findParent_relabel (distinguishes : Distinguishes label bundle) {slot : Slot}
    (slotIn : slot ∈ bundle) :
    findParent der (bundle.map (relabel label)) (relabel label slot) =
      (findParent der bundle slot).map (relabel label) := by
  rw [findParent_eq, findParent_eq]
  apply find?_relabel
  intro candidate candidateIn
  exact parentTest_relabel distinguishes slotIn candidateIn

theorem findParent_mem {slot parent : Slot} (found : findParent der bundle slot = some parent) :
    parent ∈ bundle := by
  rw [findParent_eq] at found
  exact List.mem_of_find?_eq_some found

theorem walkUp_relabel (distinguishes : Distinguishes label bundle) {slot : Slot} (steps : Nat)
    (slotIn : slot ∈ bundle) :
    walkUp der (bundle.map (relabel label)) steps (relabel label slot) =
      walkUp der bundle steps slot := by
  induction steps generalizing slot with
  | zero =>
      unfold walkUp
      rfl
  | succ steps ih =>
      have sameCert : (relabel label slot).1 = slot.1 := rfl
      cases issued : isSelfSigned slot.1 with
      | true =>
          rw [walkUp_selfSigned _ issued]
          exact walkUp_selfSigned _ (sameCert ▸ issued)
      | false =>
          rw [walkUp_succ steps issued, walkUp_succ steps (sameCert ▸ issued),
            findParent_relabel distinguishes slotIn]
          cases found : findParent der bundle slot with
          | none => rfl
          | some parent => exact ih (findParent_mem found)

end Relabel

section Search

variable {der : CrlCodec} {verifier : SignatureVerifier} {crl : CertificateList}
  {bundle : List Slot}

structure SignerPasses (der : CrlCodec) (verifier : SignatureVerifier) (crl : CertificateList)
    (signer : Certificate) : Prop where
  crlSign : checkCrlSign der signer = .ok ()
  named : namesMatch crl.tbsCertList.issuer signer.tbsCertificate.subject = true
  signed : verifyCrlSignature der verifier crl signer.tbsCertificate.subjectPublicKeyInfo = .ok ()

/-- The search of the bundle in its order finds a signer that the CRL is accepted from. -/
def Succeeds (der : CrlCodec) (verifier : SignatureVerifier) (crl : CertificateList)
    (bundle : List Slot) : Prop :=
  ∃ slot, bundle.find? (signerTest der crl) = some slot ∧
    SignerPasses der verifier crl slot.1 ∧ reachesSelfSigned der bundle slot = true

theorem Succeeds.relabel {label : Nat → Nat} (distinguishes : Distinguishes label bundle) :
    Succeeds der verifier crl (bundle.map (relabel label)) ↔
      Succeeds der verifier crl bundle := by
  have signer : (bundle.map (Revocation.relabel label)).find? (signerTest der crl) =
      (bundle.find? (signerTest der crl)).map (Revocation.relabel label) :=
    find?_relabel (fun _ _ => rfl)
  unfold Succeeds reachesSelfSigned
  rw [signer, List.length_map]
  constructor
  · intro succeeds
    rcases succeeds with ⟨slot, found, passes, reaches⟩
    rcases Option.map_eq_some_iff.mp found with ⟨original, foundThere, isSlot⟩
    rw [← isSlot] at passes reaches
    rw [walkUp_relabel distinguishes _ (List.mem_of_find?_eq_some foundThere)] at reaches
    exact ⟨original, foundThere, passes, reaches⟩
  · intro succeeds
    rcases succeeds with ⟨slot, found, passes, reaches⟩
    refine ⟨Revocation.relabel label slot, Option.map_eq_some_iff.mpr ⟨slot, found, rfl⟩,
      passes, ?_⟩
    rw [walkUp_relabel distinguishes _ (List.mem_of_find?_eq_some found)]
    exact reaches

/-- Places count up from the front, whatever order the slots came in. -/
theorem succeeds_slots_iff (distinct : (bundle.map Prod.snd).Nodup) :
    Succeeds der verifier crl (slots (bundle.map Prod.fst)) ↔
      Succeeds der verifier crl bundle := by
  have places : slots (bundle.map Prod.fst) =
      bundle.map (relabel (fun place => (bundle.map Prod.snd).idxOf place)) := by
    unfold slots
    apply List.ext_getElem
    · simp
    · intro index here there
      have inBundle : index < bundle.length := by simpa using there
      have place := distinct.idxOf_getElem index (by simpa using inBundle)
      rw [List.getElem_map] at place
      simp only [List.getElem_zipIdx, List.getElem_map, relabel, place, Nat.zero_add]
  rw [places]
  apply Succeeds.relabel
  intro slot member other otherMember same
  exact List.idxOf_inj (List.mem_map_of_mem member) |>.mp same

theorem slots_distinct (certs : List Certificate) : ((slots certs).map Prod.snd).Nodup := by
  unfold slots
  rw [List.zipIdx_map_snd]
  exact List.nodup_range'

/-- Every order of the certificates is an order of their slots, and the other way round. -/
theorem forall_perm_slots_iff (certs : List Certificate) (holds : Prop → Prop) :
    (∀ other : List Certificate, other.Perm certs →
        holds (Succeeds der verifier crl (slots other))) ↔
      ∀ ordered : List Slot, ordered.Perm (slots certs) →
        holds (Succeeds der verifier crl ordered) := by
  have certsOf : (slots certs).map Prod.fst = certs := List.zipIdx_map_fst 0 certs
  have same : ∀ ordered : List Slot, ordered.Perm (slots certs) →
      Succeeds der verifier crl (slots (ordered.map Prod.fst)) =
        Succeeds der verifier crl ordered := by
    intro ordered order
    have distinct := (order.map Prod.snd).nodup_iff.mpr (slots_distinct certs)
    exact propext (succeeds_slots_iff distinct)
  constructor
  · intro everyOther ordered order
    have moved := order.map Prod.fst
    rw [certsOf] at moved
    rw [← same ordered order]
    exact everyOther _ moved
  · intro everyOrdered other order
    have lifted : Relation.Comp (fun (certs : List Certificate) bundle => certs = bundle.map Prod.fst)
        List.Perm other (slots certs) := by
      rw [List.eq_map_comp_perm]
      dsimp only
      rw [certsOf]
      exact order
    rcases lifted with ⟨ordered, isOther, orderedPerm⟩
    rw [isOther, same ordered orderedPerm]
    exact everyOrdered ordered orderedPerm

/-- The choices behind a signer and the parents climbed to from it. -/
def searchChoices (der : CrlCodec) (crl : CertificateList) (bundle : List Slot) (slot : Slot)
    (parents : List Slot) : List (Choice Slot) :=
  ⟨signerTest der crl, slot⟩ :: climbChoices der bundle slot parents

theorem makes_searchChoices_iff {ordered : List Slot} (order : ordered.Perm bundle) {slot : Slot}
    {parents : List Slot} :
    Makes ordered (searchChoices der crl bundle slot parents) ↔
      ordered.find? (signerTest der crl) = some slot ∧
        Makes ordered (climbChoices der ordered slot parents) := by
  unfold searchChoices
  rw [makes_cons_iff, climbChoices_perm order]

/-- A climb with consistent choices that gets to a self-signed certificate. -/
def MayArrive (der : CrlCodec) (crl : CertificateList) (bundle : List Slot) (slot : Slot) : Prop :=
  ∃ parents top, Arrives (bundle.length + 1) slot parents top ∧
    Consistent bundle (searchChoices der crl bundle slot parents)

/-- A climb with consistent choices that gets nowhere. -/
def MayStray (der : CrlCodec) (crl : CertificateList) (bundle : List Slot) (slot : Slot) : Prop :=
  ∃ parents top, Strays der bundle (bundle.length + 1) slot parents top ∧
    Consistent bundle (searchChoices der crl bundle slot parents)

theorem mayArrive_iff {slot : Slot} :
    MayArrive der crl bundle slot ↔ ∃ ordered : List Slot, ordered.Perm bundle ∧
      ordered.find? (signerTest der crl) = some slot ∧
      reachesSelfSigned der ordered slot = true := by
  constructor
  · intro may
    rcases may with ⟨parents, top, arrives, consistent⟩
    rcases exists_perm_makes_iff.mpr consistent with ⟨ordered, order, makes⟩
    rcases (makes_searchChoices_iff order).mp makes with ⟨found, climbs⟩
    rw [← order.length_eq] at arrives
    exact ⟨ordered, order, found, walkUp_of_arrives arrives climbs⟩
  · intro arrived
    rcases arrived with ⟨ordered, order, found, reaches⟩
    rcases walkUp_climbs (ordered.length + 1) slot with ⟨parents, top, climbs, arrives, _⟩
    have made := (makes_searchChoices_iff order).mpr ⟨found, climbs⟩
    have arrivesHere := arrives reaches
    rw [order.length_eq] at arrivesHere
    exact ⟨parents, top, arrivesHere, exists_perm_makes_iff.mp ⟨ordered, order, made⟩⟩

theorem mayStray_iff {slot : Slot} :
    MayStray der crl bundle slot ↔ ∃ ordered : List Slot, ordered.Perm bundle ∧
      ordered.find? (signerTest der crl) = some slot ∧
      reachesSelfSigned der ordered slot = false := by
  constructor
  · intro may
    rcases may with ⟨parents, top, strays, consistent⟩
    rcases exists_perm_makes_iff.mpr consistent with ⟨ordered, order, makes⟩
    rcases (makes_searchChoices_iff order).mp makes with ⟨found, climbs⟩
    rw [← Strays.perm order, ← order.length_eq] at strays
    exact ⟨ordered, order, found, walkUp_of_strays strays climbs⟩
  · intro strayed
    rcases strayed with ⟨ordered, order, found, misses⟩
    rcases walkUp_climbs (ordered.length + 1) slot with ⟨parents, top, climbs, _, strays⟩
    have made := (makes_searchChoices_iff order).mpr ⟨found, climbs⟩
    have straysHere := strays misses
    rw [Strays.perm order, order.length_eq] at straysHere
    exact ⟨parents, top, straysHere, exists_perm_makes_iff.mp ⟨ordered, order, made⟩⟩

/-- Any slot that passes the test can be put first. -/
theorem exists_order_found {slot : Slot} (member : slot ∈ bundle)
    (passes : signerTest der crl slot = true) :
    ∃ ordered : List Slot, ordered.Perm bundle ∧
      ordered.find? (signerTest der crl) = some slot :=
  ⟨slot :: bundle.erase slot, (List.perm_cons_erase member).symm, List.find?_cons_of_pos passes⟩

structure EverySignerArrives (der : CrlCodec) (verifier : SignatureVerifier)
    (crl : CertificateList) (bundle : List Slot) : Prop where
  some : ∃ slot ∈ bundle, signerTest der crl slot = true
  passes : ∀ slot ∈ bundle, signerTest der crl slot = true →
    SignerPasses der verifier crl slot.1
  arrives : ∀ slot ∈ bundle, signerTest der crl slot = true → ¬MayStray der crl bundle slot

def NoSignerArrives (der : CrlCodec) (verifier : SignatureVerifier) (crl : CertificateList)
    (bundle : List Slot) : Prop :=
  ∀ slot ∈ bundle, signerTest der crl slot = true → SignerPasses der verifier crl slot.1 →
    ¬MayArrive der crl bundle slot

theorem everySignerArrives_iff :
    (∀ ordered : List Slot, ordered.Perm bundle → Succeeds der verifier crl ordered) ↔
      EverySignerArrives der verifier crl bundle := by
  constructor
  · intro succeeds
    refine ⟨?_, ?_, ?_⟩
    · rcases succeeds bundle (List.Perm.refl bundle) with ⟨slot, found, _, _⟩
      exact ⟨slot, List.mem_of_find?_eq_some found, List.find?_some found⟩
    · intro slot member passes
      rcases exists_order_found member passes with ⟨ordered, order, found⟩
      rcases succeeds ordered order with ⟨other, foundOther, otherPasses, _⟩
      rw [found] at foundOther
      cases foundOther
      exact otherPasses
    · intro slot member passes strays
      rcases mayStray_iff.mp strays with ⟨ordered, order, found, misses⟩
      rcases succeeds ordered order with ⟨other, foundOther, _, reaches⟩
      rw [found] at foundOther
      cases foundOther
      rw [misses] at reaches
      cases reaches
  · intro every ordered order
    rcases every.some with ⟨slot, member, passes⟩
    have found : (ordered.find? (signerTest der crl)).isSome = true :=
      List.find?_isSome.mpr ⟨slot, order.mem_iff.mpr member, passes⟩
    rcases Option.isSome_iff_exists.mp found with ⟨first, foundFirst⟩
    have firstIn := order.mem_iff.mp (List.mem_of_find?_eq_some foundFirst)
    have firstPasses := List.find?_some foundFirst
    refine ⟨first, foundFirst, every.passes first firstIn firstPasses, ?_⟩
    by_contra misses
    exact every.arrives first firstIn firstPasses
      (mayStray_iff.mpr ⟨ordered, order, foundFirst, Bool.eq_false_iff.mpr misses⟩)

theorem noSignerArrives_iff :
    (∀ ordered : List Slot, ordered.Perm bundle → ¬Succeeds der verifier crl ordered) ↔
      NoSignerArrives der verifier crl bundle := by
  constructor
  · intro fails slot member _ passes arrives
    rcases mayArrive_iff.mp arrives with ⟨ordered, order, found, reaches⟩
    exact fails ordered order ⟨slot, found, passes, reaches⟩
  · intro none ordered order succeeds
    rcases succeeds with ⟨slot, found, passes, reaches⟩
    exact none slot (order.mem_iff.mp (List.mem_of_find?_eq_some found)) (List.find?_some found)
      passes (mayArrive_iff.mpr ⟨ordered, order, found, reaches⟩)

theorem every_order_succeeds_iff {certs : List Certificate} :
    (∀ other : List Certificate, other.Perm certs → Succeeds der verifier crl (slots other)) ↔
      EverySignerArrives der verifier crl (slots certs) :=
  (forall_perm_slots_iff certs id).trans everySignerArrives_iff

theorem no_order_succeeds_iff {certs : List Certificate} :
    (∀ other : List Certificate, other.Perm certs → ¬Succeeds der verifier crl (slots other)) ↔
      NoSignerArrives der verifier crl (slots certs) :=
  (forall_perm_slots_iff certs Not).trans noSignerArrives_iff

end Search

end Pkix.Revocation
