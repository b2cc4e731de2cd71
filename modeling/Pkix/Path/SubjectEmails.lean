import Pkix.Path.ConcreteCodec
import Pkix.Path.NameConstraintRules

/-! E-mail addresses in the subject of a certificate that passes the name constraints. -/

namespace Pkix.Path

/-- The address is in no excluded mailbox subtree and, once mailboxes are constrained, in a
permitted one. -/
structure AddressAllowed (state : NameConstraintState) (address : Bytes) : Prop where
  excluded : ∀ subtree ∈ state.ncExcluded, ∀ constraint, subtree.base = .rfc822Name constraint →
    matchesRfc822Name address constraint.bytes = false
  permitted : state.ncConstrainedTypes.intersects .rfc822 = true →
    ∃ subtree ∈ state.ncPermitted.getD [], ∃ constraint, subtree.base = .rfc822Name constraint ∧
      matchesRfc822Name address constraint.bytes = true

section Emails

variable {der : DerCodec} {state : NameConstraintState} {subject : Name} {index : Nat}

theorem rfc822MatchesAny_iff (address : Bytes) (subtrees : GeneralSubtrees) :
    rfc822MatchesAny address subtrees = true ↔
      ∃ subtree ∈ subtrees, ∃ constraint, subtree.base = .rfc822Name constraint ∧
        matchesRfc822Name address constraint.bytes = true := by
  rw [rfc822MatchesAny, List.any_eq_true]
  apply exists_congr
  intro subtree
  apply and_congr_right
  intro _
  cases base : subtree.base <;> simp

theorem rfc822MatchesAny_filter (address : Bytes) (subtrees : GeneralSubtrees) :
    rfc822MatchesAny address (subtrees.filter isRfc822Subtree) =
      rfc822MatchesAny address subtrees := by
  rw [Bool.eq_iff_iff, rfc822MatchesAny_iff, rfc822MatchesAny_iff]
  constructor
  · intro found
    obtain ⟨subtree, kept, matched⟩ := found
    exact ⟨subtree, (List.mem_filter.mp kept).1, matched⟩
  · intro found
    obtain ⟨subtree, present, constraint, base, matched⟩ := found
    have mailbox : isRfc822Subtree subtree = true := by simp [isRfc822Subtree, base]
    exact ⟨subtree, List.mem_filter.mpr ⟨present, mailbox⟩, constraint, base, matched⟩

theorem addressAllowed_iff (address : Bytes) :
    AddressAllowed state address ↔
      rfc822MatchesAny address state.ncExcluded = false ∧
        (state.ncConstrainedTypes.intersects .rfc822 = true →
          rfc822MatchesAny address (state.ncPermitted.getD []) = true) := by
  rw [rfc822MatchesAny_iff, ← Bool.not_eq_true, rfc822MatchesAny_iff]
  constructor
  · intro allowed
    refine ⟨?_, allowed.permitted⟩
    intro found
    obtain ⟨subtree, present, constraint, base, matched⟩ := found
    rw [allowed.excluded subtree present constraint base] at matched
    cases matched
  · intro rules
    refine ⟨?_, rules.2⟩
    intro subtree present constraint base
    rw [← Bool.not_eq_true]
    exact fun matched => rules.1 ⟨subtree, present, constraint, base, matched⟩

/-- One attribute that decodes is checked in full. -/
theorem emailViolates_false_iff {ava : AttributeTypeAndValue} {email : Ia5String}
    (isEmail : ava.oid = oidEmailAddress) (decoded : der.ia5String ava.value = some email) :
    emailViolates der state ava = false ↔ AddressAllowed state email.bytes := by
  rw [addressAllowed_iff, emailViolates, isEmail, decoded]
  simp [rfc822MatchesAny_filter]

theorem excludes_no_mailbox {address : Bytes} (none : state.ncExcluded.any isRfc822Subtree = false) :
    rfc822MatchesAny address state.ncExcluded = false := by
  rw [← rfc822MatchesAny_filter]
  have empty : state.ncExcluded.filter isRfc822Subtree = [] := by
    rw [List.filter_eq_nil_iff]
    intro subtree present mailbox
    rw [List.any_eq_true.mpr ⟨subtree, present, mailbox⟩] at none
    cases none
  rw [empty]
  rfl

/-- Every attribute of an accepted subject that decodes is allowed, whether or not the walk
was entered. -/
theorem addressAllowed_of_accepted
    (accepted : checkSubjectEmails der subject state index = .ok ())
    {rdn : RelativeDistinguishedName} (inside : rdn ∈ subject) {ava : AttributeTypeAndValue}
    (present : ava ∈ rdn) {email : Ia5String} (isEmail : ava.oid = oidEmailAddress)
    (decoded : der.ia5String ava.value = some email) : AddressAllowed state email.bytes := by
  have nonempty : subject.isEmpty = false := by
    cases subject with
    | nil => cases inside
    | cons first rest => rfl
  unfold checkSubjectEmails at accepted
  cases entered : state.ncConstrainedTypes.intersects .rfc822 ||
      state.ncExcluded.any isRfc822Subtree with
  | false =>
      rw [Bool.or_eq_false_iff] at entered
      rw [addressAllowed_iff, entered.1]
      exact ⟨excludes_no_mailbox entered.2, fun constrained => by cases constrained⟩
  | true =>
      rw [entered, nonempty] at accepted
      apply (emailViolates_false_iff isEmail decoded).mp
      cases violates : emailViolates der state ava with
      | false => rfl
      | true =>
          have found : subject.flatten.any (emailViolates der state) = true :=
            List.any_eq_true.mpr ⟨ava, List.mem_flatten.mpr ⟨rdn, inside, present⟩, violates⟩
          rw [found] at accepted
          cases accepted

end Emails

/-- The e-mail addresses of the subject, as a reading of attribute values gives them. -/
def EmailsAllowed (addressText : Any → Option Bytes) (state : NameConstraintState)
    (subject : Name) (concerned : Any → Prop) : Prop :=
  ∀ rdn ∈ subject, ∀ ava ∈ rdn, ava.oid = oidEmailAddress → concerned ava.value →
    ∀ address, addressText ava.value = some address → AddressAllowed state address

/-- An accepted certificate keeps its addresses within the constraints just when the attributes
that are no IA5String, which the walk skips, happen to do so. -/
theorem checkNameConstraints_emails_iff {der : DerCodec} {cert : Certificate}
    {san : Option SubjectAltName} {state : NameConstraintState} {index : Nat}
    {addressText : Any → Option Bytes}
    (readsIa5 : ∀ value email, der.ia5String value = some email →
      addressText value = some email.bytes)
    (accepted : checkNameConstraints der cert san state index = .ok ()) :
    EmailsAllowed addressText state cert.tbsCertificate.subject (fun _ => True) ↔
      EmailsAllowed addressText state cert.tbsCertificate.subject
        (fun value => der.ia5String value = none) := by
  constructor
  · exact fun all rdn inside ava present isEmail _ => all rdn inside ava present isEmail trivial
  · intro skipped rdn inside ava present isEmail _ address reads
    cases decoded : der.ia5String ava.value with
    | none => exact skipped rdn inside ava present isEmail decoded address reads
    | some email =>
        have same := readsIa5 _ _ decoded
        rw [reads] at same
        rw [Option.some.inj same]
        exact addressAllowed_of_accepted (checkNameConstraints_ok_iff.mp accepted).2.2 inside
          present isEmail decoded

namespace Concrete

def badDomain : Bytes := [98, 97, 100, 46, 111, 114, 103]

/-- Mailboxes at `bad.org` are excluded and nothing else is constrained. -/
def badDomainExcluded : NameConstraintState :=
  ⟨none, [subtree (.rfc822Name ⟨badDomain, by decide +kernel⟩)], .empty⟩

def certWithEmail (tag : Tag) (address : Bytes) : Certificate :=
  issue 1 (commonName [65]) [[⟨oidEmailAddress, ⟨tag, address⟩⟩]] [1, 2, 3] [4, 5] []

/-- `a@ok.org` -/
def okAddress : Bytes := [97, 64, 111, 107, 46, 111, 114, 103]

def badAddress : Bytes := 97 :: 64 :: badDomain

theorem anyToStrBytes_decodeIa5 (value : Any) (email : Ia5String)
    (decoded : decodeIa5 value = some email) : anyToStrBytes value = some email.bytes := by
  unfold decodeIa5 at decoded
  split at decoded
  · rename_i isIa5
    split at decoded
    · cases decoded
      rw [anyToStrBytes, isIa5]
    · cases decoded
  · cases decoded

theorem ia5Email_allowed : EmailsAllowed anyToStrBytes badDomainExcluded
    (certWithEmail .ia5String okAddress).tbsCertificate.subject (fun _ => True) := by
  have accepted : checkNameConstraints (tableCodec {}) (certWithEmail .ia5String okAddress) none
      badDomainExcluded 0 = .ok () := by
    decide +kernel
  apply (checkNameConstraints_emails_iff anyToStrBytes_decodeIa5 accepted).mpr
  intro rdn inside ava present _ unread
  rw [List.mem_singleton.mp inside, List.mem_singleton] at present
  rw [present] at unread
  exact absurd unread (by decide +kernel)

/-- As a UTF8String the same attribute escapes the excluded subtree. -/
theorem utf8Email_escapes :
    checkNameConstraints (tableCodec {}) (certWithEmail .utf8String badAddress) none
        badDomainExcluded 0 = .ok () ∧
      anyToStrBytes ⟨.utf8String, badAddress⟩ = some badAddress ∧
      ¬ EmailsAllowed anyToStrBytes badDomainExcluded
        (certWithEmail .utf8String badAddress).tbsCertificate.subject (fun _ => True) := by
  refine ⟨by decide +kernel, rfl, ?_⟩
  intro allowed
  have address := allowed _ (List.mem_singleton_self _) _ (List.mem_singleton_self _) rfl trivial
    badAddress rfl
  have apart := address.excluded _ (List.mem_singleton_self _) _ rfl
  revert apart
  decide +kernel

end Concrete

end Pkix.Path
