import Pkix.Revocation.DeltaScope
import Pkix.Revocation.ProcessedContent

/-! The entries of an indirect CRL and the issuers they stand for, read back from each entry,
against the lookup that carries the issuer forward. -/

namespace Pkix.Revocation

open Pkix.Path

section Reference

variable (der : CrlCodec) (crlIssuer : Name) (cert : Certificate)

/-- The issuer of the first of the entries given, latest first: the name in its own
certificateIssuer, without one the issuer of the entry before it, and before the first entry
the CRL issuer. -/
def issuerOfEntry : (latestFirst : List RevokedCert) → Option Name
  | [] => some crlIssuer
  | entry :: earlier =>
      match findIn entry.extensions oidCertificateIssuer with
      | none => issuerOfEntry earlier
      | some extension => (parseCertificateIssuerDn der extension.extnValue).toOption

structure EntryFor (before : List RevokedCert) (entry : RevokedCert) : Prop where
  serial : entry.serialNumber = cert.tbsCertificate.serialNumber
  issuer : ∃ name, issuerOfEntry der crlIssuer (entry :: before.reverse) = some name ∧
    namesMatch name cert.tbsCertificate.issuer = true

def HasEntry (entries : List RevokedCert) : Prop :=
  ∃ before entry after, entries = before ++ entry :: after ∧
    EntryFor der crlIssuer cert before entry

/-- The first entry for the certificate, behind entries whose issuers can all be read. -/
def FirstEntry (entries : List RevokedCert) (entry : RevokedCert) : Prop :=
  ∃ before after, entries = before ++ entry :: after ∧
    (∀ earlier ∈ before, IssuerReadable der earlier) ∧
    ¬HasEntry der crlIssuer cert before ∧ EntryFor der crlIssuer cert before entry

def NoEntry (entries : List RevokedCert) : Prop :=
  (∀ entry ∈ entries, IssuerReadable der entry) ∧ ¬HasEntry der crlIssuer cert entries

end Reference

section Carried

variable {der : CrlCodec} {cert : Certificate} {effective next : Name} {head entry : RevokedCert}
variable {before rest entries : List RevokedCert}

theorem issuerOfEntry_single :
    issuerOfEntry der effective [head] = (effectiveIssuer der true effective head).toOption := by
  unfold issuerOfEntry effectiveIssuer
  cases findIn head.extensions oidCertificateIssuer <;> rfl

theorem readable_iff :
    IssuerReadable der head ↔ ∃ next, effectiveIssuer der true effective head = .ok next := by
  constructor
  · intro readable
    unfold effectiveIssuer
    cases located : findIn head.extensions oidCertificateIssuer with
    | none => exact ⟨effective, rfl⟩
    | some extension => exact readable extension.extnValue (by simp [contentOf, located])
  · intro read
    obtain ⟨next, read⟩ := read
    exact effectiveIssuer_readable read

/-- Past an entry the issuer it stands for takes the place of the CRL issuer. -/
theorem issuerOfEntry_append (read : effectiveIssuer der true effective head = .ok next)
    (latestFirst : List RevokedCert) :
    issuerOfEntry der effective (latestFirst ++ [head]) = issuerOfEntry der next latestFirst := by
  induction latestFirst with
  | nil =>
      rw [List.nil_append, issuerOfEntry_single, read]
      rfl
  | cons entry earlier ih => rw [List.cons_append, issuerOfEntry, issuerOfEntry, ih]

theorem entryFor_nil_iff (read : effectiveIssuer der true effective head = .ok next) :
    EntryFor der effective cert [] head ↔
      (head.serialNumber == cert.tbsCertificate.serialNumber &&
        namesMatch next cert.tbsCertificate.issuer) = true := by
  rw [Bool.and_eq_true, beq_iff_eq]
  constructor
  · intro here
    obtain ⟨name, given, matched⟩ := here.issuer
    rw [List.reverse_nil, issuerOfEntry_single, read] at given
    cases given
    exact ⟨here.serial, matched⟩
  · intro matched
    refine ⟨matched.1, next, ?_, matched.2⟩
    rw [List.reverse_nil, issuerOfEntry_single, read]
    rfl

theorem entryFor_cons_iff (read : effectiveIssuer der true effective head = .ok next) :
    EntryFor der effective cert (head :: before) entry ↔ EntryFor der next cert before entry := by
  have carried : issuerOfEntry der effective (entry :: (head :: before).reverse) =
      issuerOfEntry der next (entry :: before.reverse) := by
    rw [List.reverse_cons, ← List.cons_append, issuerOfEntry_append read]
  constructor
  · intro here
    exact ⟨here.serial, by rw [← carried]; exact here.issuer⟩
  · intro here
    exact ⟨here.serial, by rw [carried]; exact here.issuer⟩

theorem hasEntry_cons_iff (read : effectiveIssuer der true effective head = .ok next) :
    HasEntry der effective cert (head :: rest) ↔
      EntryFor der effective cert [] head ∨ HasEntry der next cert rest := by
  constructor
  · intro has
    obtain ⟨before, entry, after, split, here⟩ := has
    cases before with
    | nil =>
        obtain ⟨same, _⟩ := List.cons.inj split
        rw [same]
        exact .inl here
    | cons first before =>
        obtain ⟨same, tail⟩ := List.cons.inj split
        subst same
        exact .inr ⟨before, entry, after, tail, (entryFor_cons_iff read).mp here⟩
  · intro has
    rcases has with here | ⟨before, entry, after, split, here⟩
    · exact ⟨[], head, rest, rfl, here⟩
    · exact ⟨head :: before, entry, after, by rw [split, List.cons_append],
        (entryFor_cons_iff read).mpr here⟩

theorem firstEntry_here (read : effectiveIssuer der true effective head = .ok next)
    (here : EntryFor der effective cert [] head) :
    FirstEntry der effective cert (head :: rest) entry ↔ head = entry := by
  constructor
  · intro first
    obtain ⟨before, after, split, _, noEarlier, _⟩ := first
    cases before with
    | nil => exact (List.cons.inj split).1
    | cons other before =>
        obtain ⟨same, _⟩ := List.cons.inj split
        subst same
        exact absurd ((hasEntry_cons_iff read).mpr (.inl here)) noEarlier
  · intro same
    subst same
    refine ⟨[], rest, rfl, by simp, ?_, here⟩
    intro has
    obtain ⟨_, _, _, split, _⟩ := has
    simp at split

theorem firstEntry_later (read : effectiveIssuer der true effective head = .ok next)
    (notHere : ¬EntryFor der effective cert [] head) :
    FirstEntry der effective cert (head :: rest) entry ↔ FirstEntry der next cert rest entry := by
  constructor
  · intro first
    obtain ⟨before, after, split, readable, noEarlier, here⟩ := first
    cases before with
    | nil =>
        obtain ⟨same, _⟩ := List.cons.inj split
        subst same
        exact absurd here notHere
    | cons other before =>
        obtain ⟨same, tail⟩ := List.cons.inj split
        subst same
        rw [List.forall_mem_cons] at readable
        rw [hasEntry_cons_iff read, not_or] at noEarlier
        exact ⟨before, after, tail, readable.2, noEarlier.2, (entryFor_cons_iff read).mp here⟩
  · intro first
    obtain ⟨before, after, split, readable, noEarlier, here⟩ := first
    refine ⟨head :: before, after, by rw [split, List.cons_append], ?_, ?_,
      (entryFor_cons_iff read).mpr here⟩
    · rw [List.forall_mem_cons]
      exact ⟨effectiveIssuer_readable read, readable⟩
    · rw [hasEntry_cons_iff read, not_or]
      exact ⟨notHere, noEarlier⟩

/-- The step of the lookup: an issuer that cannot be read ends it, an entry that matches is
given back, and any other one hands its issuer on. -/
theorem findMatchingEntry_cons {certIssuer : Name} {certSerial : Bytes} :
    findMatchingEntry der certIssuer certSerial true effective (head :: rest) =
      match effectiveIssuer der true effective head with
      | .error failure => .error failure
      | .ok next =>
          if head.serialNumber == certSerial && namesMatch next certIssuer then .ok (some head)
          else findMatchingEntry der certIssuer certSerial true next rest := by
  rw [findMatchingEntry]
  cases effectiveIssuer der true effective head <;> rfl

theorem findMatchingEntry_some_iff :
    findMatchingEntry der cert.tbsCertificate.issuer cert.tbsCertificate.serialNumber true
      effective entries = .ok (some entry) ↔ FirstEntry der effective cert entries entry := by
  induction entries generalizing effective with
  | nil =>
      constructor
      · intro found
        cases found
      · intro first
        obtain ⟨_, _, split, _⟩ := first
        simp at split
  | cons head rest ih =>
      rw [findMatchingEntry_cons]
      cases read : effectiveIssuer der true effective head with
      | error failure =>
          have unreadable : ¬IssuerReadable der head := by
            rw [@readable_iff der effective head, read]
            simp
          constructor
          · intro found
            cases found
          · intro first
            obtain ⟨before, after, split, readable, _, here⟩ := first
            cases before with
            | nil =>
                obtain ⟨same, _⟩ := List.cons.inj split
                subst same
                obtain ⟨name, given, _⟩ := here.issuer
                rw [List.reverse_nil, issuerOfEntry_single, read] at given
                cases given
            | cons other before =>
                obtain ⟨same, _⟩ := List.cons.inj split
                subst same
                exact absurd (readable head List.mem_cons_self) unreadable
      | ok next =>
          dsimp only
          split
          · rename_i matched
            rw [firstEntry_here read ((entryFor_nil_iff read).mpr matched), Except.ok.injEq,
              Option.some.injEq]
          · rename_i other
            rw [firstEntry_later read (fun here => other ((entryFor_nil_iff read).mp here)), ih]

theorem findMatchingEntry_none_iff :
    findMatchingEntry der cert.tbsCertificate.issuer cert.tbsCertificate.serialNumber true
      effective entries = .ok none ↔ NoEntry der effective cert entries := by
  induction entries generalizing effective with
  | nil =>
      refine ⟨fun _ => ⟨by simp, ?_⟩, fun _ => rfl⟩
      intro has
      obtain ⟨_, _, _, split, _⟩ := has
      simp at split
  | cons head rest ih =>
      unfold NoEntry
      rw [findMatchingEntry_cons, List.forall_mem_cons, @readable_iff der effective head]
      cases read : effectiveIssuer der true effective head with
      | error failure => simp
      | ok next =>
          rw [hasEntry_cons_iff read, entryFor_nil_iff read]
          dsimp only
          split
          · rename_i matched
            simp [matched]
          · rename_i other
            rw [ih]
            simp [NoEntry, other]

/-- With every issuer readable the lookup finds an entry where there is one. -/
theorem findMatchingEntry_readable (readable : ∀ entry ∈ entries, IssuerReadable der entry) :
    (∃ entry, findMatchingEntry der cert.tbsCertificate.issuer cert.tbsCertificate.serialNumber
      true effective entries = .ok (some entry)) ↔ HasEntry der effective cert entries := by
  constructor
  · intro found
    obtain ⟨entry, found⟩ := found
    obtain ⟨before, after, split, _, _, here⟩ := findMatchingEntry_some_iff.mp found
    exact ⟨before, entry, after, split, here⟩
  · intro has
    induction entries generalizing effective with
    | nil =>
        obtain ⟨_, _, _, split, _⟩ := has
        simp at split
    | cons head rest ih =>
        rw [List.forall_mem_cons, @readable_iff der effective head] at readable
        obtain ⟨⟨next, read⟩, readable⟩ := readable
        rw [hasEntry_cons_iff read, entryFor_nil_iff read] at has
        rw [findMatchingEntry_cons, read]
        dsimp only
        split
        · exact ⟨head, rfl⟩
        · rename_i other
          exact ih readable (has.resolve_left other)

end Carried

section Verdicts

variable {der : CrlCodec} {cert : Certificate} {deltaEntries : List RevokedCert}
variable {crl : CertificateList}

/-- The verdict of the delta's entry, without one that of the base's, without either that the
certificate is not revoked. -/
def IndirectVerdict (der : CrlCodec) (cert : Certificate) (deltaEntries : List RevokedCert)
    (crl : CertificateList) (settled : Verdict) : Prop :=
  (∃ entry, FirstEntry der crl.tbsCertList.issuer cert deltaEntries entry ∧
    deltaVerdict der cert entry = settled) ∨
  NoEntry der crl.tbsCertList.issuer cert deltaEntries ∧
    ((∃ entry, FirstEntry der crl.tbsCertList.issuer cert crl.entries entry ∧
      revokedBy der cert entry = settled) ∨
    NoEntry der crl.tbsCertList.issuer cert crl.entries ∧ .notRevoked = settled)

theorem checkBaseEntries_verdict_iff {settled : Verdict} (decided : settled ≠ .undetermined) :
    verdict (checkBaseEntries der cert crl true) = settled ↔
      (∃ entry, FirstEntry der crl.tbsCertList.issuer cert crl.entries entry ∧
        revokedBy der cert entry = settled) ∨
      NoEntry der crl.tbsCertList.issuer cert crl.entries ∧ .notRevoked = settled := by
  unfold checkBaseEntries
  rw [verdict_bind findMatchingEntry_harmless decided]
  constructor
  · intro looked
    obtain ⟨found, looked, outcome⟩ := looked
    cases found with
    | none => exact .inr ⟨findMatchingEntry_none_iff.mp looked, outcome⟩
    | some entry => exact .inl ⟨entry, findMatchingEntry_some_iff.mp looked, outcome⟩
  · intro looked
    rcases looked with ⟨entry, first, outcome⟩ | ⟨nothing, outcome⟩
    · exact ⟨some entry, findMatchingEntry_some_iff.mpr first, outcome⟩
    · exact ⟨none, findMatchingEntry_none_iff.mpr nothing, outcome⟩

theorem checkRevocationStatus_indirect_iff {settled : Verdict}
    (decided : settled ≠ .undetermined) :
    verdict (checkRevocationStatusIndirect der cert deltaEntries crl true) = settled ↔
      IndirectVerdict der cert deltaEntries crl settled := by
  unfold checkRevocationStatusIndirect IndirectVerdict
  rw [verdict_bind findMatchingEntry_harmless decided, ← checkBaseEntries_verdict_iff decided]
  constructor
  · intro looked
    obtain ⟨found, looked, outcome⟩ := looked
    cases found with
    | none => exact .inr ⟨findMatchingEntry_none_iff.mp looked, outcome⟩
    | some entry =>
        refine .inl ⟨entry, findMatchingEntry_some_iff.mp looked, ?_⟩
        rw [← outcome, deltaVerdict]
        dsimp only
        split <;> rfl
  · intro looked
    rcases looked with ⟨entry, first, outcome⟩ | ⟨nothing, outcome⟩
    · refine ⟨some entry, findMatchingEntry_some_iff.mpr first, ?_⟩
      rw [← outcome, deltaVerdict]
      dsimp only
      split <;> rfl
    · exact ⟨none, findMatchingEntry_none_iff.mpr nothing, outcome⟩

end Verdicts

/-- The lookup gives back the first entry for the certificate, provided the issuers of the
entries before it can be read, and the verdict goes by the delta's entry before the base's;
an issuer that cannot be read leaves neither an entry nor a verdict. -/
theorem indirect_lookup_exact (der : CrlCodec) (cert : Certificate) (crlIssuer : Name)
    (entries deltaEntries : List RevokedCert) (crl : CertificateList) :
    (∀ entry, findMatchingEntry der cert.tbsCertificate.issuer cert.tbsCertificate.serialNumber
        true crlIssuer entries = .ok (some entry) ↔
      FirstEntry der crlIssuer cert entries entry) ∧
    (findMatchingEntry der cert.tbsCertificate.issuer cert.tbsCertificate.serialNumber
        true crlIssuer entries = .ok none ↔ NoEntry der crlIssuer cert entries) ∧
    ((∀ entry ∈ entries, IssuerReadable der entry) →
      ((∃ entry, findMatchingEntry der cert.tbsCertificate.issuer
          cert.tbsCertificate.serialNumber true crlIssuer entries = .ok (some entry)) ↔
        HasEntry der crlIssuer cert entries)) ∧
    (∀ settled, settled ≠ .undetermined →
      (verdict (checkRevocationStatusIndirect der cert deltaEntries crl true) = settled ↔
        IndirectVerdict der cert deltaEntries crl settled)) :=
  ⟨fun _ => findMatchingEntry_some_iff, findMatchingEntry_none_iff, findMatchingEntry_readable,
    fun _ decided => checkRevocationStatus_indirect_iff decided⟩

namespace UnreadableIssuer

open Pkix.Path.Concrete
open Pkix.Revocation.Concrete

/-- An entry whose certificateIssuer does not decode. -/
def unreadable : RevokedCert := entryOf 9 [⟨oidCertificateIssuer, true, [0x05]⟩]

/-- The entry for the leaf, which names the leaf's issuer itself. -/
def forLeaf : RevokedCert := entryOf 2 [DirectDelta.certificateIssuerExtension]

def entries : List RevokedCert := [unreadable, forLeaf]

end UnreadableIssuer

theorem unreadable_issuer_hides_entry :
    ¬((∃ entry, findMatchingEntry DirectDelta.codec DirectDelta.leaf.tbsCertificate.issuer
          DirectDelta.leaf.tbsCertificate.serialNumber true (Path.Concrete.commonName [68])
          UnreadableIssuer.entries = .ok (some entry)) ↔
      HasEntry DirectDelta.codec (Path.Concrete.commonName [68]) DirectDelta.leaf
        UnreadableIssuer.entries) := by
  have stopped : findMatchingEntry DirectDelta.codec DirectDelta.leaf.tbsCertificate.issuer
      DirectDelta.leaf.tbsCertificate.serialNumber true (Path.Concrete.commonName [68])
      UnreadableIssuer.entries = .error (.crlParseError Concrete.undecodable) := by
    decide +kernel
  have named : issuerOfEntry DirectDelta.codec (Path.Concrete.commonName [68])
      [UnreadableIssuer.forLeaf, UnreadableIssuer.unreadable] =
        some (Path.Concrete.commonName [65]) := by
    decide +kernel
  have here : EntryFor DirectDelta.codec (Path.Concrete.commonName [68]) DirectDelta.leaf
      [UnreadableIssuer.unreadable] UnreadableIssuer.forLeaf :=
    ⟨rfl, Path.Concrete.commonName [65], named, by decide +kernel⟩
  intro same
  have has : HasEntry DirectDelta.codec (Path.Concrete.commonName [68]) DirectDelta.leaf
      UnreadableIssuer.entries :=
    ⟨[UnreadableIssuer.unreadable], UnreadableIssuer.forLeaf, [], rfl, here⟩
  obtain ⟨entry, found⟩ := same.mpr has
  rw [stopped] at found
  cases found

end Pkix.Revocation
