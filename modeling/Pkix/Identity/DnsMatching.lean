import Pkix.Identity.MailboxMatching
import Pkix.Identity.ServerName

/-! Matching a certificate's alternative names against a reference server name. -/

namespace Pkix.Identity

open Pkix.Path Splitting Walk

/-- The suffix behind the wildcard label against a target. -/
def matchesWildcard (rest target : Text) : Bool :=
  if rest.contains '*' || rest.isEmpty then false
  else if !rest.contains '.' then false
  else
    match splitFirst '.' target with
    | none => false
    | some (first, restOfTarget) =>
        if first.isEmpty then false else eqIgnoreAsciiCase restOfTarget rest

def matchesDnsSan (sanEntry target : Text) : Bool :=
  match stripTrailingDot sanEntry with
  | [] => false
  | '*' :: '.' :: rest => matchesWildcard rest target
  | san => if san.contains '*' then false else eqIgnoreAsciiCase san target

def sanEntryMatches (name : ServerName) (entry : GeneralName) : Bool :=
  match name.repr, entry with
  | .dns target, .dnsName sanDns => matchesDnsSan (asStr sanDns) target
  | .ip target, .ipAddress sanIp => sanIp == target.asBytes
  | _, _ => false

def verifyDnsName (codec : DerCodec) (cert : Certificate) (name : ServerName) : Result Unit := do
  let san ← findSan codec cert
  if san.any (sanEntryMatches name) then .ok () else .error .noMatchingSan

section Specification

/-- The target is one label in front of the suffix, which has two labels or more. -/
def WildcardCovers (rest target : Text) : Prop :=
  '*' ∉ rest ∧ 2 ≤ (rest.splitOn '.').countP (fun label => !label.isEmpty) ∧
    ∃ first tail, target = first ++ '.' :: tail ∧ first ≠ [] ∧ '.' ∉ first ∧
      toAsciiLowercase tail = toAsciiLowercase rest

def Covers (pattern target : Text) : Prop :=
  toAsciiLowercase pattern = toAsciiLowercase target ∨
    ∃ rest, pattern = '*' :: '.' :: rest ∧ WildcardCovers rest target

/-- A target is accepted through a pattern that covers it, its trailing dot aside; a wildcard
anywhere but alone in the leftmost label covers nothing, and there it stands for one label. -/
structure DnsMatchExact (codec : DerCodec) (cert : Certificate) (san : SubjectAltName)
    (target : Text) : Prop where
  verdict : verifyDnsName codec cert ⟨.dns target⟩ = .ok () ↔
    ∃ pattern, .dnsName pattern ∈ san ∧ Covers (stripTrailingDot (asStr pattern)) target
  misplaced : ∀ pattern, '*' ∈ asStr pattern →
    (∀ rest, stripTrailingDot (asStr pattern) = '*' :: '.' :: rest → '*' ∈ rest) →
      matchesDnsSan (asStr pattern) target = false
  oneLabel : ∀ pattern rest, stripTrailingDot (asStr pattern) = '*' :: '.' :: rest →
    matchesDnsSan (asStr pattern) target = true →
      (target.splitOn '.').length = (rest.splitOn '.').length + 1

end Specification

section Matching

variable {target : Text}

theorem splitOn_lowercase (text : Text) :
    (toAsciiLowercase text).splitOn '.' = (text.splitOn '.').map toAsciiLowercase :=
  splitOn_map (fun _ => toLower_eq_iff (by decide)) text

/-- Texts equal up to case have their labels in common, up to case. -/
theorem labels_of_lowercase_eq {a b : Text} (same : toAsciiLowercase a = toAsciiLowercase b) :
    (a.splitOn '.').map toAsciiLowercase = (b.splitOn '.').map toAsciiLowercase := by
  rw [← splitOn_lowercase, ← splitOn_lowercase, same]

theorem no_empty_label_of_lowercase_eq {a b : Text}
    (same : toAsciiLowercase a = toAsciiLowercase b) (filled : [] ∉ a.splitOn '.') :
    [] ∉ b.splitOn '.' := by
  intro listed
  have lowered : [] ∈ (b.splitOn '.').map toAsciiLowercase := List.mem_map.mpr ⟨[], listed, rfl⟩
  rw [← labels_of_lowercase_eq same] at lowered
  rcases List.mem_map.mp lowered with ⟨label, inside, empty⟩
  rw [List.map_eq_nil_iff.mp empty] at inside
  exact filled inside

theorem two_labels {text : Text} (dotted : '.' ∈ text) (filled : [] ∉ text.splitOn '.') :
    2 ≤ (text.splitOn '.').countP (fun label => !label.isEmpty) := by
  have all : (text.splitOn '.').countP (fun label => !label.isEmpty) = (text.splitOn '.').length := by
    rw [List.countP_eq_length]
    intro label listed
    have nonempty : label ≠ [] := fun empty => filled (empty ▸ listed)
    simpa using nonempty
  rcases List.append_of_mem dotted with ⟨front, back, joined⟩
  have first := List.length_pos_iff.mpr (List.splitOn_ne_nil '.' front)
  have second := List.length_pos_iff.mpr (List.splitOn_ne_nil '.' back)
  rw [all, joined, List.splitOn_append_cons_self, List.length_append]
  omega

theorem dotted_of_labels {text : Text}
    (labels : 2 ≤ (text.splitOn '.').countP (fun label => !label.isEmpty)) : '.' ∈ text := by
  by_contra plain
  have few := labels.trans List.countP_le_length
  rw [List.splitOn_eq_singleton plain, List.length_singleton] at few
  omega

theorem matchesWildcard_iff (valid : validateAsciiDns target = .ok ()) (rest : Text) :
    matchesWildcard rest target = true ↔ WildcardCovers rest target := by
  unfold matchesWildcard WildcardCovers
  constructor
  · intro matched
    split at matched
    · cases matched
    · rename_i plain
      split at matched
      · cases matched
      · rename_i dotted
        split at matched
        · cases matched
        · rename_i first tail cut
          rcases (splitFirst_some_iff '.' target first tail).mp cut with ⟨joined, single⟩
          split at matched
          · cases matched
          · rename_i nonempty
            have same : toAsciiLowercase tail = toAsciiLowercase rest := beq_iff_eq.mp matched
            have labels := no_empty_label valid
            rw [joined, List.splitOn_append_cons_self_of_not_mem single, List.mem_cons,
              not_or] at labels
            have filled := no_empty_label_of_lowercase_eq same labels.2
            have inside : '.' ∈ rest := by simpa using dotted
            refine ⟨?_, two_labels inside filled, first, tail, joined, ?_, single, same⟩
            · intro wild
              simp [wild] at plain
            · intro empty
              simp [empty] at nonempty
  · intro ⟨plain, labels, first, tail, joined, nonempty, single, same⟩
    have inside := dotted_of_labels labels
    have cut := (splitFirst_some_iff '.' target first tail).mpr ⟨joined, single⟩
    have present : rest ≠ [] := List.ne_nil_of_mem inside
    simp [plain, present, inside, cut, nonempty, eqIgnoreAsciiCase, same]

theorem wild_ne_target (valid : validateAsciiDns target = .ok ()) {pattern : Text}
    (wild : '*' ∈ pattern) : toAsciiLowercase pattern ≠ toAsciiLowercase target := by
  intro same
  have star : Unlettered '*' := by decide
  rw [← mem_lowercase_iff star, same, mem_lowercase_iff star] at wild
  exact notMem_of_valid valid (by decide) (by decide) wild

/-- What makes one pattern match. -/
theorem matchesDnsSan_iff (valid : validateAsciiDns target = .ok ()) (sanEntry : Text) :
    matchesDnsSan sanEntry target = true ↔ Covers (stripTrailingDot sanEntry) target := by
  unfold matchesDnsSan Covers
  split
  · rename_i empty
    have differ : toAsciiLowercase [] ≠ toAsciiLowercase target := by
      intro same
      exact ne_nil_of_valid valid (List.map_eq_nil_iff.mp same.symm)
    rw [empty]
    simp [differ]
  · rename_i rest shape
    have differ := wild_ne_target valid (List.mem_cons_self : '*' ∈ '*' :: '.' :: rest)
    rw [shape, matchesWildcard_iff valid]
    simp [differ]
  · rename_i _ other
    have noWildcard : ¬ ∃ rest, stripTrailingDot sanEntry = '*' :: '.' :: rest ∧
        WildcardCovers rest target := fun ⟨rest, shape, _⟩ => other rest shape
    rw [or_iff_left noWildcard]
    by_cases wild : '*' ∈ stripTrailingDot sanEntry
    · simp [wild, wild_ne_target valid wild]
    · simp [wild, eqIgnoreAsciiCase]

theorem verifyDnsName_ok_iff {codec : DerCodec} {cert : Certificate} {san : SubjectAltName}
    {name : ServerName} (wellFormed : findSan codec cert = .ok san) :
    verifyDnsName codec cert name = .ok () ↔ ∃ entry ∈ san, sanEntryMatches name entry = true :=
  anyEntry_ok_iff wellFormed

theorem sanEntryMatches_dns_iff {entry : GeneralName} :
    sanEntryMatches ⟨.dns target⟩ entry = true ↔
      ∃ pattern, entry = .dnsName pattern ∧ matchesDnsSan (asStr pattern) target = true := by
  cases entry <;> simp [sanEntryMatches]

theorem dnsName_ok {domainToAscii : Text → Option Text} {text : Text} {name : ServerName}
    (accepted : ServerName.dnsName domainToAscii text = .ok name) :
    ∃ target, normalizeDnsName domainToAscii text = .ok target ∧ name = ⟨.dns target⟩ := by
  rcases bind_ok.mp accepted with ⟨target, normalized, same⟩
  cases same
  exact ⟨target, normalized, rfl⟩

theorem verifyDnsName_exact {domainToAscii : Text → Option Text} {codec : DerCodec}
    {cert : Certificate} {san : SubjectAltName} {text : Text}
    (accepted : ServerName.dnsName domainToAscii text = .ok ⟨.dns target⟩)
    (wellFormed : findSan codec cert = .ok san) : DnsMatchExact codec cert san target := by
  rcases dnsName_ok accepted with ⟨_, normalized, same⟩
  cases same
  have valid := valid_of_normalize normalized
  refine ⟨?_, ?_, ?_⟩
  · rw [verifyDnsName_ok_iff wellFormed]
    constructor
    · intro ⟨entry, listed, matched⟩
      rcases sanEntryMatches_dns_iff.mp matched with ⟨pattern, form, covers⟩
      rw [form] at listed
      exact ⟨pattern, listed, (matchesDnsSan_iff valid _).mp covers⟩
    · intro ⟨pattern, listed, covers⟩
      exact ⟨_, listed, sanEntryMatches_dns_iff.mpr
        ⟨pattern, rfl, (matchesDnsSan_iff valid _).mpr covers⟩⟩
  · intro pattern wild misplaced
    apply Bool.eq_false_iff.mpr
    intro matched
    rcases (matchesDnsSan_iff valid _).mp matched with same | ⟨rest, shape, plain, _⟩
    · refine wild_ne_target valid ?_ same
      unfold stripTrailingDot
      split
      · rename_i last
        rcases List.getLast?_eq_some_iff.mp last with ⟨front, joined⟩
        rw [joined] at wild ⊢
        simpa using wild
      · exact wild
    · exact plain (misplaced rest shape)
  · intro pattern rest shape matched
    rcases (matchesDnsSan_iff valid _).mp matched with same | ⟨_, again, _, _, first, tail, joined,
      _, single, same⟩
    · exact absurd same (wild_ne_target valid (shape ▸ List.mem_cons_self))
    · rw [shape] at again
      cases again
      have lengths := congrArg List.length (labels_of_lowercase_eq same)
      rw [List.length_map, List.length_map] at lengths
      rw [joined, List.splitOn_append_cons_self_of_not_mem single, List.length_cons, lengths]

end Matching

namespace Concrete

open Path.Concrete

def absoluteSan : SubjectAltName :=
  [.dnsName ⟨octets "*.example.com.".toList, by decide +kernel⟩]

def absoluteContent : Bytes := tlv 0x30 (tlv 0x82 (octets "*.example.com.".toList))

def absoluteCodec : DerCodec := tableCodec { subjectAltName := [(absoluteContent, absoluteSan)] }

def hostText : Text := "A.example.com".toList

def host : Text := "a.example.com".toList

/-- A wildcard pattern in absolute form. -/
theorem absoluteSan_exact :
    DnsMatchExact absoluteCodec (certWithSan absoluteContent) absoluteSan host :=
  @verifyDnsName_exact host asciiToAscii absoluteCodec (certWithSan absoluteContent) absoluteSan
    hostText (by decide +kernel) (by decide +kernel)

/-- It covers the host although nothing but its trailing dot tells it from the host's suffix. -/
theorem absoluteSan_wildcard :
    ServerName.dnsName asciiToAscii hostText = .ok ⟨.dns host⟩ ∧
      findSan absoluteCodec (certWithSan absoluteContent) = .ok absoluteSan ∧
      verifyDnsName absoluteCodec (certWithSan absoluteContent) ⟨.dns host⟩ = .ok () ∧
      ¬ ∃ pattern, .dnsName pattern ∈ absoluteSan ∧
        (toAsciiLowercase (stripTrailingDot (asStr pattern)) = toAsciiLowercase host ∨
          ∃ rest, asStr pattern = '*' :: '.' :: rest ∧ WildcardCovers rest host) := by
  refine ⟨by decide +kernel, by decide +kernel, by decide +kernel, ?_⟩
  intro ⟨pattern, listed, equal⟩
  have only := List.mem_singleton.mp listed
  cases only
  rcases equal with same | ⟨rest, shape, _, _, first, tail, joined, _, _, same⟩
  · exact absurd same (by decide +kernel)
  · have suffix : rest = "example.com.".toList := by
      have text : asStr ⟨octets "*.example.com.".toList, by decide +kernel⟩ =
          '*' :: '.' :: "example.com.".toList := by decide +kernel
      rw [text] at shape
      exact (List.cons.inj (List.cons.inj shape).2).2.symm
    have lowered := congrArg toAsciiLowercase joined
    have cut : toAsciiLowercase (first ++ '.' :: tail) =
        toAsciiLowercase first ++ '.' :: toAsciiLowercase tail := by
      simp only [toAsciiLowercase, List.map_append, List.map_cons]
      rfl
    rw [cut, same, suffix] at lowered
    have last := congrArg List.getLast? lowered
    rw [List.getLast?_append_of_ne_nil _ (List.cons_ne_nil _ _)] at last
    exact absurd last (by decide +kernel)

end Concrete

end Pkix.Identity
