import Pkix.Identity.MailboxMatching
import Pkix.Lint.LintRunner

/-! The lint on rfc822Name and SmtpUTF8Mailbox entries that are to name the same mailboxes: the
loops over the entries, and what a pass means. -/

namespace Pkix.Lint

open Pkix.Path Splitting StdText
open Identity (Text Presents asStr decodeUtf8StringAny oidSmtpUtf8Mailbox splitLast_presents
  toAsciiLowercase)

section Details

def detailMaxBytes : Nat := 256

/-- As many characters as fit into so many octets. -/
def fittingPrefix : Nat → Text → Text
  | _, [] => []
  | room, char :: rest =>
      if char.utf8Size ≤ room then char :: fittingPrefix (room - char.utf8Size) rest else []

def truncateForDetail (text : Text) : String :=
  if (utf8 text).length ≤ detailMaxBytes then String.ofList text
  else String.ofList (fittingPrefix detailMaxBytes text) ++ "... (truncated, " ++
    (utf8 text).length.repr ++ " bytes total)"

/-- An entry of the first kind could not be read as a mailbox. -/
def malformedDetail (kind : String) (entry : Text) (reason : String) : String :=
  kind ++ " SAN entry '" ++ truncateForDetail entry ++
    "' is malformed for equivalence checking (" ++ reason ++
    "); RFC 8398 §3 presupposes well-formed RFC 5322 mailbox addresses"

/-- An entry of the first kind has no counterpart of the other. -/
def unmatchedDetail (kind other : String) (entry : Text) : String :=
  kind ++ " SAN entry '" ++ truncateForDetail entry ++ "' has no matching " ++ other ++
    "; RFC 8398 §3 requires byte-identical local-part and A-label/U-label-equivalent domain"

end Details

section Addresses

variable (domainToAscii : Text → Option Text)

def splitMailbox (addr : Text) : Option (Text × Text) := splitLast '@' addr

def validateMailboxForEquivalence (addr : Text) : Except String Unit :=
  match splitMailbox addr with
  | none => .error "no '@' delimiter"
  | some (localPart, domain) =>
      if localPart.isEmpty then .error "empty local-part"
      else if domain.isEmpty then .error "empty domain"
      else
        match domainToAscii domain with
        | none => .error "domain failed IDN A-label conversion"
        | some _ => .ok ()

def mailboxEquivalent (rfc822 smtpUtf8 : Text) : Except String Bool :=
  match splitMailbox rfc822 with
  | none => .error "rfc822Name has no '@' delimiter"
  | some (rLocal, rDomain) =>
      match splitMailbox smtpUtf8 with
      | none => .error "SmtpUTF8Mailbox has no '@' delimiter"
      | some (uLocal, uDomain) =>
          if rLocal.isEmpty ∨ uLocal.isEmpty ∨ rDomain.isEmpty ∨ uDomain.isEmpty then
            .error "mailbox address has empty local-part or domain"
          else if rLocal ≠ uLocal then .ok false
          else
            match domainToAscii uDomain with
            | none => .error "U-label → A-label conversion failed"
            | some uAscii => .ok (Identity.eqIgnoreAsciiCase uAscii rDomain)

end Addresses

section Loops

/-- The first entry that is refused, with the reason. -/
def firstMalformed (validate : Text → Except String Unit) : List Text → Option (Text × String)
  | [] => none
  | entry :: rest =>
      match validate entry with
      | .error reason => some (entry, reason)
      | .ok () => firstMalformed validate rest

/-- Whether some entry is equivalent; `none` is the panic on a comparison that fails. -/
def anyEquivalent (compare : Text → Except String Bool) : List Text → Option Bool
  | [] => some false
  | entry :: rest =>
      match compare entry with
      | .error _ => none
      | .ok true => some true
      | .ok false => anyEquivalent compare rest

/-- The first entry without a counterpart, where the search did not panic. -/
def firstUnmatched (matched : Text → Option Bool) : List Text → Option (Option Text)
  | [] => some none
  | entry :: rest =>
      match matched entry with
      | none => none
      | some false => some (some entry)
      | some true => firstUnmatched matched rest

/-- The addresses of both kinds, unless one is not a UTF8String. -/
def collectAddrs : SubjectAltName → Option (List Text × List Text)
  | [] => some ([], [])
  | .rfc822Name addr :: rest =>
      (collectAddrs rest).map fun addrs => (asStr addr :: addrs.1, addrs.2)
  | .otherName typeId value :: rest =>
      if typeId = oidSmtpUtf8Mailbox then
        match decodeUtf8StringAny value with
        | .error _ => none
        | .ok text => (collectAddrs rest).map fun addrs => (addrs.1, text :: addrs.2)
      else collectAddrs rest
  | _ :: rest => collectAddrs rest

end Loops

section Check

variable (domainToAscii : Text → Option Text)

def checkAddrs (rfc822Addrs smtpUtf8Addrs : List Text) : Option LintResult :=
  if rfc822Addrs.isEmpty ∨ smtpUtf8Addrs.isEmpty then some .pass
  else
    match firstMalformed (validateMailboxForEquivalence domainToAscii) rfc822Addrs with
    | some (entry, reason) => some (.error (malformedDetail "rfc822Name" entry reason))
    | none =>
        match firstMalformed (validateMailboxForEquivalence domainToAscii) smtpUtf8Addrs with
        | some (entry, reason) => some (.error (malformedDetail "SmtpUTF8Mailbox" entry reason))
        | none => do
            let rfc822 ← firstUnmatched (fun rfc822 =>
              anyEquivalent (fun smtpUtf8 => mailboxEquivalent domainToAscii rfc822 smtpUtf8)
                smtpUtf8Addrs) rfc822Addrs
            match rfc822 with
            | some entry => some (.error (unmatchedDetail "rfc822Name" "SmtpUTF8Mailbox" entry))
            | none => do
                let smtpUtf8 ← firstUnmatched (fun smtpUtf8 =>
                  anyEquivalent (fun rfc822 => mailboxEquivalent domainToAscii rfc822 smtpUtf8)
                    rfc822Addrs) smtpUtf8Addrs
                match smtpUtf8 with
                | some entry => some (.error (unmatchedDetail "SmtpUTF8Mailbox" "rfc822Name" entry))
                | none => some .pass

def checkSan (san : SubjectAltName) : Option LintResult :=
  match collectAddrs san with
  | none => some (.error
      "SubjectAltName id-on-SmtpUTF8Mailbox otherName value is not a valid UTF8String")
  | some (rfc822Addrs, smtpUtf8Addrs) => checkAddrs domainToAscii rfc822Addrs smtpUtf8Addrs

/-- The decoder gives its message where it fails; `none` is a panic. -/
def checkCertMailboxEquivalence (subjectAltName : Bytes → Except Text SubjectAltName)
    (cert : Certificate) : Option LintResult :=
  match findExtension cert oidSubjectAltName with
  | none => some .pass
  | some extension =>
      match subjectAltName extension.extnValue with
      | .error message => some (.error
          ("SubjectAltName extension value is malformed DER: " ++ truncateForDetail message))
      | .ok san => checkSan domainToAscii san

end Check

section Specification

variable (domainToAscii : Text → Option Text)

def WellFormedAddr (addr : Text) : Prop :=
  ∃ localPart domain, Presents addr localPart domain ∧ localPart ≠ [] ∧ domain ≠ [] ∧
    ∃ aLabel, domainToAscii domain = some aLabel

/-- Equal local parts, and domains equal as A-labels but for the case of letters. -/
def SameMailbox (rfc822 smtpUtf8 : Text) : Prop :=
  ∃ localPart rDomain uDomain aLabel, Presents rfc822 localPart rDomain ∧
    Presents smtpUtf8 localPart uDomain ∧ domainToAscii uDomain = some aLabel ∧
    toAsciiLowercase aLabel = toAsciiLowercase rDomain

def Rfc822Addr (san : SubjectAltName) (text : Text) : Prop :=
  ∃ addr, .rfc822Name addr ∈ san ∧ asStr addr = text

def SmtpUtf8Addr (san : SubjectAltName) (text : Text) : Prop :=
  ∃ value, .otherName oidSmtpUtf8Mailbox value ∈ san ∧ decodeUtf8StringAny value = .ok text

/-- An entry that is not a UTF8String, wherever it stands. -/
def Undecodable (san : SubjectAltName) : Prop :=
  ∃ value, .otherName oidSmtpUtf8Mailbox value ∈ san ∧
    ¬ ∃ text, decodeUtf8StringAny value = .ok text

/-- The entries of two kinds name the same set of mailboxes. -/
structure SameSets (rfc822 smtpUtf8 : Text → Prop) : Prop where
  rfc822Formed : ∀ addr, rfc822 addr → WellFormedAddr domainToAscii addr
  smtpUtf8Formed : ∀ addr, smtpUtf8 addr → WellFormedAddr domainToAscii addr
  rfc822Matched : ∀ addr, rfc822 addr → ∃ other, smtpUtf8 other ∧
    SameMailbox domainToAscii addr other
  smtpUtf8Matched : ∀ addr, smtpUtf8 addr → ∃ other, rfc822 other ∧
    SameMailbox domainToAscii other addr

end Specification

section Comparison

variable {domainToAscii : Text → Option Text} {rfc822 smtpUtf8 : Text}

theorem presents_unique {text localPart domain localPart' domain' : Text}
    (presents : Presents text localPart domain) (presents' : Presents text localPart' domain') :
    localPart = localPart' ∧ domain = domain' := by
  have cut := splitLast_presents.mpr presents
  rw [splitLast_presents.mpr presents', Option.some.injEq, Prod.mk.injEq] at cut
  exact ⟨cut.1.symm, cut.2.symm⟩

theorem validate_ok_iff (addr : Text) :
    validateMailboxForEquivalence domainToAscii addr = .ok () ↔
      WellFormedAddr domainToAscii addr := by
  unfold validateMailboxForEquivalence splitMailbox
  constructor
  · intro valid
    split at valid
    · cases valid
    · rename_i localPart domain cut
      split at valid
      · cases valid
      · rename_i localGiven
        split at valid
        · cases valid
        · rename_i domainGiven
          split at valid
          · cases valid
          · rename_i aLabel converted
            exact ⟨localPart, domain, splitLast_presents.mp cut,
              fun none => localGiven (List.isEmpty_iff.mpr none),
              fun none => domainGiven (List.isEmpty_iff.mpr none), aLabel, converted⟩
  · intro formed
    obtain ⟨localPart, domain, presents, localGiven, domainGiven, aLabel, converted⟩ := formed
    rw [splitLast_presents.mpr presents]
    dsimp only
    rw [if_neg (List.isEmpty_iff.not.mpr localGiven), if_neg (List.isEmpty_iff.not.mpr domainGiven),
      converted]

/-- Two addresses that the validator accepts are compared without a failure. -/
theorem mailboxEquivalent_ok (formed : WellFormedAddr domainToAscii rfc822)
    (formed' : WellFormedAddr domainToAscii smtpUtf8) :
    ∃ same, mailboxEquivalent domainToAscii rfc822 smtpUtf8 = .ok same ∧
      (same = true ↔ SameMailbox domainToAscii rfc822 smtpUtf8) := by
  obtain ⟨rLocal, rDomain, rPresents, rLocalGiven, rDomainGiven, _, _⟩ := formed
  obtain ⟨uLocal, uDomain, uPresents, uLocalGiven, uDomainGiven, aLabel, converted⟩ := formed'
  have given : ¬ (rLocal.isEmpty = true ∨ uLocal.isEmpty = true ∨ rDomain.isEmpty = true ∨
      uDomain.isEmpty = true) := by
    rw [List.isEmpty_iff, List.isEmpty_iff, List.isEmpty_iff, List.isEmpty_iff]
    intro empty
    rcases empty with none | none | none | none
    · exact rLocalGiven none
    · exact uLocalGiven none
    · exact rDomainGiven none
    · exact uDomainGiven none
  unfold mailboxEquivalent splitMailbox
  rw [splitLast_presents.mpr rPresents, splitLast_presents.mpr uPresents]
  dsimp only
  rw [if_neg given]
  by_cases same : rLocal = uLocal
  · rw [if_neg (not_not.mpr same), converted]
    refine ⟨_, rfl, ?_⟩
    rw [Identity.eqIgnoreAsciiCase, beq_iff_eq]
    constructor
    · intro domains
      exact ⟨rLocal, rDomain, uDomain, aLabel, rPresents, same ▸ uPresents, converted, domains⟩
    · intro sameMailbox
      obtain ⟨_, _, _, aLabel', rPresents', uPresents', converted', domains⟩ := sameMailbox
      rw [(presents_unique rPresents' rPresents).2] at domains
      rw [(presents_unique uPresents' uPresents).2, converted, Option.some.injEq] at converted'
      rw [converted']
      exact domains
  · rw [if_pos same]
    refine ⟨false, rfl, ?_⟩
    constructor
    · intro impossible
      cases impossible
    · intro sameMailbox
      obtain ⟨_, _, _, _, rPresents', uPresents', _, _⟩ := sameMailbox
      exact absurd ((presents_unique rPresents rPresents').1.trans
        (presents_unique uPresents' uPresents).1) same

end Comparison

section LoopFacts

variable {entries : List Text}

theorem firstMalformed_none {validate : Text → Except String Unit} :
    firstMalformed validate entries = none ↔ ∀ entry ∈ entries, validate entry = .ok () := by
  induction entries with
  | nil => exact ⟨fun _ => List.forall_mem_nil _, fun _ => rfl⟩
  | cons entry rest ih =>
      rw [firstMalformed, List.forall_mem_cons, ← ih]
      cases validate entry with
      | error reason => simp
      | ok done => simp

theorem anyEquivalent_some {compare : Text → Except String Bool} {same : Text → Prop}
    (compares : ∀ entry ∈ entries, ∃ equal, compare entry = .ok equal ∧ (equal = true ↔ same entry)) :
    ∃ found, anyEquivalent compare entries = some found ∧
      (found = true ↔ ∃ entry ∈ entries, same entry) := by
  induction entries with
  | nil => exact ⟨false, rfl, by simp⟩
  | cons entry rest ih =>
      rw [List.forall_mem_cons] at compares
      obtain ⟨equal, here, meaning⟩ := compares.1
      obtain ⟨found, later, others⟩ := ih compares.2
      rw [anyEquivalent, here]
      cases equal with
      | true => exact ⟨true, rfl, fun _ => ⟨entry, List.mem_cons_self, meaning.mp rfl⟩, fun _ => rfl⟩
      | false =>
          have different : ¬ same entry := fun holds => Bool.false_ne_true (meaning.mpr holds)
          refine ⟨found, later, others.trans ?_⟩
          rw [List.exists_mem_cons_iff, or_iff_right different]

theorem firstUnmatched_some {matched : Text → Option Bool} {holds : Text → Prop}
    (decides : ∀ entry ∈ entries, ∃ found, matched entry = some found ∧ (found = true ↔ holds entry)) :
    ∃ first, firstUnmatched matched entries = some first ∧
      (first = none ↔ ∀ entry ∈ entries, holds entry) := by
  induction entries with
  | nil => exact ⟨none, rfl, fun _ => List.forall_mem_nil _, fun _ => rfl⟩
  | cons entry rest ih =>
      rw [List.forall_mem_cons] at decides
      obtain ⟨found, here, meaning⟩ := decides.1
      obtain ⟨first, later, all⟩ := ih decides.2
      rw [firstUnmatched, here, List.forall_mem_cons, ← meaning]
      cases found with
      | true => exact ⟨first, later, by simpa using all⟩
      | false => exact ⟨some entry, rfl, by simp⟩

end LoopFacts

section Collecting

variable {entry : GeneralName} {san : SubjectAltName} {text : Text}

/-- What the collecting loop gives: the addresses of the entries of both kinds. -/
structure Collected (san : SubjectAltName) (rfc822Addrs smtpUtf8Addrs : List Text) : Prop where
  rfc822 : ∀ addr, addr ∈ rfc822Addrs ↔ Rfc822Addr san addr
  smtpUtf8 : ∀ addr, addr ∈ smtpUtf8Addrs ↔ SmtpUtf8Addr san addr
  decodable : ¬ Undecodable san

theorem rfc822Addr_cons : Rfc822Addr (entry :: san) text ↔
    (∃ addr, entry = .rfc822Name addr ∧ asStr addr = text) ∨ Rfc822Addr san text := by
  unfold Rfc822Addr
  simp only [List.mem_cons, or_and_right, exists_or, eq_comm]

theorem smtpUtf8Addr_cons : SmtpUtf8Addr (entry :: san) text ↔
    (∃ value, entry = .otherName oidSmtpUtf8Mailbox value ∧ decodeUtf8StringAny value = .ok text) ∨
      SmtpUtf8Addr san text := by
  unfold SmtpUtf8Addr
  simp only [List.mem_cons, or_and_right, exists_or]
  simp only [eq_comm]

theorem undecodable_cons : Undecodable (entry :: san) ↔
    (∃ value, entry = .otherName oidSmtpUtf8Mailbox value ∧
      ¬ ∃ text, decodeUtf8StringAny value = .ok text) ∨ Undecodable san := by
  unfold Undecodable
  simp only [List.mem_cons, or_and_right, exists_or]
  simp only [eq_comm]

variable {rfc822Addrs smtpUtf8Addrs : List Text}

theorem Collected.consRfc822 (collected : Collected san rfc822Addrs smtpUtf8Addrs)
    (addr : Ia5String) :
    Collected (.rfc822Name addr :: san) (asStr addr :: rfc822Addrs) smtpUtf8Addrs where
  rfc822 := by
    intro text
    rw [List.mem_cons, rfc822Addr_cons, collected.rfc822 text]
    simp [eq_comm]
  smtpUtf8 := by
    intro text
    rw [smtpUtf8Addr_cons, collected.smtpUtf8 text]
    simp
  decodable := by
    rw [undecodable_cons]
    simp [collected.decodable]

theorem Collected.consSmtpUtf8 (collected : Collected san rfc822Addrs smtpUtf8Addrs) {value : Any}
    (decoded : decodeUtf8StringAny value = .ok text) :
    Collected (.otherName oidSmtpUtf8Mailbox value :: san) rfc822Addrs (text :: smtpUtf8Addrs) where
  rfc822 := by
    intro addr
    rw [rfc822Addr_cons, collected.rfc822 addr]
    simp
  smtpUtf8 := by
    intro addr
    rw [List.mem_cons, smtpUtf8Addr_cons, collected.smtpUtf8 addr]
    simp [decoded, eq_comm]
  decodable := by
    rw [undecodable_cons]
    simp [decoded, collected.decodable]

theorem Collected.consOther (collected : Collected san rfc822Addrs smtpUtf8Addrs)
    (noRfc822 : ∀ addr, entry ≠ .rfc822Name addr)
    (noSmtpUtf8 : ∀ value, entry ≠ .otherName oidSmtpUtf8Mailbox value) :
    Collected (entry :: san) rfc822Addrs smtpUtf8Addrs where
  rfc822 := by
    intro text
    rw [rfc822Addr_cons, collected.rfc822 text]
    simp [noRfc822]
  smtpUtf8 := by
    intro text
    rw [smtpUtf8Addr_cons, collected.smtpUtf8 text]
    simp [noSmtpUtf8]
  decodable := by
    rw [undecodable_cons]
    simp [noSmtpUtf8, collected.decodable]

theorem collectAddrs_cases (san : SubjectAltName) :
    (collectAddrs san = none ∧ Undecodable san) ∨ ∃ rfc822Addrs smtpUtf8Addrs,
      collectAddrs san = some (rfc822Addrs, smtpUtf8Addrs) ∧
      Collected san rfc822Addrs smtpUtf8Addrs := by
  induction san with
  | nil =>
      refine .inr ⟨[], [], rfl, ?_, ?_, ?_⟩
      · simp [Rfc822Addr]
      · simp [SmtpUtf8Addr]
      · simp [Undecodable]
  | cons entry rest ih =>
      rcases ih with ⟨refused, undecodable⟩ | ⟨rfc822Addrs, smtpUtf8Addrs, found, collected⟩
      · refine .inl ⟨?_, undecodable_cons.mpr (.inr undecodable)⟩
        cases entry <;> simp only [collectAddrs, refused, Option.map_none]
        split
        · split <;> rfl
        · rfl
      · cases entry with
        | rfc822Name addr =>
            refine .inr ⟨_, _, ?_, collected.consRfc822 addr⟩
            rw [collectAddrs, found, Option.map_some]
        | otherName typeId value =>
            by_cases mailbox : typeId = oidSmtpUtf8Mailbox
            · subst mailbox
              cases decoded : decodeUtf8StringAny value with
              | error failure =>
                  refine .inl ⟨?_, value, List.mem_cons_self, ?_⟩
                  · rw [collectAddrs, if_pos rfl, decoded]
                  · intro impossible
                    obtain ⟨text, decoded'⟩ := impossible
                    rw [decoded] at decoded'
                    cases decoded'
              | ok text =>
                  refine .inr ⟨_, _, ?_, collected.consSmtpUtf8 decoded⟩
                  rw [collectAddrs, if_pos rfl, decoded]
                  dsimp only
                  rw [found, Option.map_some]
            · refine .inr ⟨_, _, ?_, collected.consOther (by simp) (by simp [mailbox])⟩
              rw [collectAddrs, if_neg mailbox, found]
        | _ =>
            refine .inr ⟨_, _, ?_, collected.consOther (by simp) (by simp)⟩
            rw [collectAddrs, found] <;> simp

end Collecting

section Exactness

variable {domainToAscii : Text → Option Text} {rfc822Addrs smtpUtf8Addrs : List Text}

/-- A verdict of this lint: it passes, or says what is wrong. -/
def PassOrError (result : LintResult) : Prop := result = .pass ∨ ∃ detail, result = .error detail

theorem refused_of_not {outcome : Option LintResult} {detail : String} {holds : Prop}
    (fails : ¬ holds) (refused : outcome = some (.error detail)) :
    ∃ result, outcome = some result ∧ PassOrError result ∧ (result = .pass ↔ holds) := by
  refine ⟨_, refused, .inr ⟨detail, rfl⟩, ?_⟩
  constructor
  · intro impossible
    cases impossible
  · intro passes
    exact absurd passes fails

theorem firstMalformed_formed {addrs : List Text} :
    firstMalformed (validateMailboxForEquivalence domainToAscii) addrs = none ↔
      ∀ addr ∈ addrs, WellFormedAddr domainToAscii addr := by
  rw [firstMalformed_none]
  exact forall₂_congr fun addr _ => validate_ok_iff addr

theorem checkAddrs_given (rfc822Given : rfc822Addrs ≠ []) (smtpUtf8Given : smtpUtf8Addrs ≠ []) :
    ∃ result, checkAddrs domainToAscii rfc822Addrs smtpUtf8Addrs = some result ∧
      PassOrError result ∧
      (result = .pass ↔ SameSets domainToAscii (· ∈ rfc822Addrs) (· ∈ smtpUtf8Addrs)) := by
  have given : ¬ (rfc822Addrs.isEmpty = true ∨ smtpUtf8Addrs.isEmpty = true) := by
    rw [List.isEmpty_iff, List.isEmpty_iff]
    exact not_or.mpr ⟨rfc822Given, smtpUtf8Given⟩
  unfold checkAddrs
  rw [if_neg given]
  cases rfc822Bad : firstMalformed (validateMailboxForEquivalence domainToAscii) rfc822Addrs with
  | some bad =>
      refine refused_of_not ?_ rfl
      intro sets
      have fine := firstMalformed_formed.mpr sets.rfc822Formed
      rw [rfc822Bad] at fine
      cases fine
  | none =>
      have rfc822Formed := firstMalformed_formed.mp rfc822Bad
      cases smtpUtf8Bad :
          firstMalformed (validateMailboxForEquivalence domainToAscii) smtpUtf8Addrs with
      | some bad =>
          refine refused_of_not ?_ rfl
          intro sets
          have fine := firstMalformed_formed.mpr sets.smtpUtf8Formed
          rw [smtpUtf8Bad] at fine
          cases fine
      | none =>
          have smtpUtf8Formed := firstMalformed_formed.mp smtpUtf8Bad
          obtain ⟨rfc822, searched, rfc822All⟩ := firstUnmatched_some fun addr member =>
            anyEquivalent_some fun other present =>
              mailboxEquivalent_ok (rfc822Formed addr member) (smtpUtf8Formed other present)
          obtain ⟨smtpUtf8, searched', smtpUtf8All⟩ := firstUnmatched_some fun addr member =>
            anyEquivalent_some fun other present =>
              mailboxEquivalent_ok (rfc822Formed other present) (smtpUtf8Formed addr member)
          dsimp only
          rw [searched]
          cases rfc822 with
          | some entry =>
              refine refused_of_not ?_ rfl
              intro sets
              have none := rfc822All.mpr sets.rfc822Matched
              cases none
          | none =>
              dsimp only [Option.bind_eq_bind, Option.bind_some]
              rw [searched']
              cases smtpUtf8 with
              | some entry =>
                  refine refused_of_not ?_ rfl
                  intro sets
                  have none := smtpUtf8All.mpr sets.smtpUtf8Matched
                  cases none
              | none =>
                  exact ⟨.pass, rfl, .inl rfl, fun _ => ⟨rfc822Formed, smtpUtf8Formed,
                    rfc822All.mp rfl, smtpUtf8All.mp rfl⟩, fun _ => rfl⟩

theorem sameSets_congr {rfc822 rfc822' smtpUtf8 smtpUtf8' : Text → Prop}
    (same : ∀ addr, rfc822 addr ↔ rfc822' addr) (same' : ∀ addr, smtpUtf8 addr ↔ smtpUtf8' addr) :
    SameSets domainToAscii rfc822 smtpUtf8 ↔ SameSets domainToAscii rfc822' smtpUtf8' := by
  have left : rfc822 = rfc822' := funext fun addr => propext (same addr)
  have right : smtpUtf8 = smtpUtf8' := funext fun addr => propext (same' addr)
  rw [left, right]

/-- What a pass means. -/
def Equivalent (domainToAscii : Text → Option Text) (san : SubjectAltName) : Prop :=
  ¬ Undecodable san ∧ ((∃ addr, Rfc822Addr san addr) → (∃ addr, SmtpUtf8Addr san addr) →
    SameSets domainToAscii (Rfc822Addr san) (SmtpUtf8Addr san))

theorem checkSan_exact (san : SubjectAltName) : ∃ result,
    checkSan domainToAscii san = some result ∧ PassOrError result ∧
      (result = .pass ↔ Equivalent domainToAscii san) := by
  unfold checkSan
  rcases collectAddrs_cases san with ⟨refused, undecodable⟩ |
    ⟨rfc822Addrs, smtpUtf8Addrs, found, rfc822, smtpUtf8, decodable⟩
  · rw [refused]
    refine refused_of_not ?_ rfl
    intro equivalent
    exact equivalent.1 undecodable
  · rw [found]
    dsimp only
    by_cases given : rfc822Addrs ≠ [] ∧ smtpUtf8Addrs ≠ []
    · obtain ⟨result, checked, shape, meaning⟩ :=
        @checkAddrs_given domainToAscii _ _ given.1 given.2
      refine ⟨result, checked, shape, meaning.trans ?_⟩
      rw [sameSets_congr rfc822 smtpUtf8]
      constructor
      · intro sets
        exact ⟨decodable, fun _ _ => sets⟩
      · intro equivalent
        obtain ⟨addr, member⟩ := List.exists_mem_of_ne_nil _ given.1
        obtain ⟨addr', member'⟩ := List.exists_mem_of_ne_nil _ given.2
        exact equivalent.2 ⟨addr, (rfc822 addr).mp member⟩ ⟨addr', (smtpUtf8 addr').mp member'⟩
    · have absent : rfc822Addrs.isEmpty = true ∨ smtpUtf8Addrs.isEmpty = true := by
        rw [List.isEmpty_iff, List.isEmpty_iff]
        by_contra both
        exact given (not_or.mp both)
      refine ⟨.pass, if_pos absent, .inl rfl, fun _ => ⟨decodable, ?_⟩, fun _ => rfl⟩
      intro someRfc822 someSmtpUtf8
      obtain ⟨addr, present⟩ := someRfc822
      obtain ⟨addr', present'⟩ := someSmtpUtf8
      exact absurd ⟨List.ne_nil_of_mem ((rfc822 addr).mpr present),
        List.ne_nil_of_mem ((smtpUtf8 addr').mpr present')⟩ given

theorem checkSan_pass_iff {san : SubjectAltName} :
    checkSan domainToAscii san = some .pass ↔ Equivalent domainToAscii san := by
  obtain ⟨result, checked, _, meaning⟩ := @checkSan_exact domainToAscii san
  rw [checked, Option.some.injEq, meaning]

theorem checkCertMailboxEquivalence_decoded {subjectAltName : Bytes → Except Text SubjectAltName}
    {cert : Certificate} {extension : Extension} {san : SubjectAltName}
    (found : findExtension cert oidSubjectAltName = some extension)
    (decoded : subjectAltName extension.extnValue = .ok san) :
    checkCertMailboxEquivalence domainToAscii subjectAltName cert = checkSan domainToAscii san := by
  unfold checkCertMailboxEquivalence
  rw [found]
  dsimp only
  rw [decoded]

theorem equivalent_congr {san san' : SubjectAltName} (same : ∀ entry, entry ∈ san ↔ entry ∈ san') :
    Equivalent domainToAscii san ↔ Equivalent domainToAscii san' := by
  unfold Equivalent Undecodable Rfc822Addr SmtpUtf8Addr
  simp only [same]

/-- The lint does not panic. On a certificate whose alternative names decode it fails on a mailbox
entry that is not a UTF8String, and else passes just when the entries of both kinds, where there are
some of both, name the same mailboxes; the order and the repetition of entries do not matter. -/
theorem mailboxEquivalence_exact (domainToAscii : Text → Option Text)
    (subjectAltName : Bytes → Except Text SubjectAltName) (cert : Certificate) :
    (∃ result, checkCertMailboxEquivalence domainToAscii subjectAltName cert = some result ∧
      PassOrError result) ∧
    ∀ extension san, findExtension cert oidSubjectAltName = some extension →
      subjectAltName extension.extnValue = .ok san →
      (Undecodable san → ∃ detail,
          checkCertMailboxEquivalence domainToAscii subjectAltName cert = some (.error detail)) ∧
      (¬ Undecodable san →
        (checkCertMailboxEquivalence domainToAscii subjectAltName cert = some .pass ↔
          ((∃ addr, Rfc822Addr san addr) → (∃ addr, SmtpUtf8Addr san addr) →
            SameSets domainToAscii (Rfc822Addr san) (SmtpUtf8Addr san)))) ∧
      (∀ cert' extension' san', findExtension cert' oidSubjectAltName = some extension' →
        subjectAltName extension'.extnValue = .ok san' → (∀ entry, entry ∈ san ↔ entry ∈ san') →
        (checkCertMailboxEquivalence domainToAscii subjectAltName cert = some .pass ↔
          checkCertMailboxEquivalence domainToAscii subjectAltName cert' = some .pass)) := by
  refine ⟨?_, ?_⟩
  · unfold checkCertMailboxEquivalence
    split
    · exact ⟨.pass, rfl, .inl rfl⟩
    · split
      · exact ⟨_, rfl, .inr ⟨_, rfl⟩⟩
      · rename_i san _
        obtain ⟨result, checked, shape, _⟩ := @checkSan_exact domainToAscii san
        exact ⟨result, checked, shape⟩
  · intro extension san found decoded
    rw [checkCertMailboxEquivalence_decoded found decoded]
    refine ⟨?_, ?_, ?_⟩
    · intro undecodable
      obtain ⟨result, checked, shape, meaning⟩ := @checkSan_exact domainToAscii san
      rcases shape with pass | ⟨detail, error⟩
      · exact absurd undecodable (meaning.mp pass).1
      · exact ⟨detail, error ▸ checked⟩
    · intro valid
      rw [checkSan_pass_iff]
      exact and_iff_right valid
    · intro cert' extension' san' found' decoded' same
      rw [checkCertMailboxEquivalence_decoded found' decoded', checkSan_pass_iff, checkSan_pass_iff]
      exact equivalent_congr same

end Exactness

end Pkix.Lint
