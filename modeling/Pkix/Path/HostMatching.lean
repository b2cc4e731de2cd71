import Pkix.Path.Subtrees

/-! URI and mailbox constraints against the host of the URI and the domain of the mailbox:
where the matchers cut a name at the right place and where they do not. -/

namespace Pkix.Path

def colon : UInt8 := 58

def pathMark : UInt8 := 47
def queryMark : UInt8 := 63
def fragmentMark : UInt8 := 35

/-- A delimiter with the part it opens, if the part is there. -/
def opened (mark : UInt8) (part : Option Bytes) : Bytes := (part.map (mark :: ·)).getD []

/-- A URI by its components. A colon stands in a host only inside a bracketed literal. -/
structure Uri where
  scheme : Bytes
  userinfo : Option Bytes
  host : Bytes
  port : Option Bytes
  path : Bytes
  query : Option Bytes
  fragment : Option Bytes
  schemePlain : colon ∉ scheme
  userinfoPlain : ∀ info ∈ userinfo, atSign ∉ info
  hostPlain : ∀ octet ∈ host, octet ∉ [pathMark, queryMark, fragmentMark, atSign]
  hostLiteral : colon ∈ host → ∃ inner, host = 91 :: inner ++ [93] ∧ 93 ∉ inner
  portDigits : ∀ digits ∈ port, ∀ octet ∈ digits, 48 ≤ octet ∧ octet ≤ 57
  pathPlain : ∀ octet ∈ path, octet ≠ queryMark ∧ octet ≠ fragmentMark
  pathRooted : path = [] ∨ path.head? = some pathMark
  queryPlain : ∀ text ∈ query, fragmentMark ∉ text

namespace Uri

/-- Path, query and fragment. -/
def tail (uri : Uri) : Bytes :=
  uri.path ++ opened queryMark uri.query ++ opened fragmentMark uri.fragment

def authority (uri : Uri) : Bytes :=
  (uri.userinfo.map (· ++ [atSign])).getD [] ++ uri.host ++ opened colon uri.port

def text (uri : Uri) : Bytes :=
  uri.scheme ++ schemeSeparator ++ uri.authority ++ uri.tail

/-- An at-sign after the authority is the first one of the whole text. -/
def AtAfterAuthority (uri : Uri) : Prop := uri.userinfo = none ∧ atSign ∈ uri.tail

end Uri

/-- The domain equals the constraint, or is a proper subdomain of one with a leading period. -/
def DomainSatisfies (domain constraint : Bytes) : Prop :=
  (stripDot constraint = none → lower domain = lower constraint) ∧
    (stripDot constraint ≠ none → ∃ front, front ≠ [] ∧ lower domain = front ++ lower constraint)

def HostSatisfies (host constraint : Bytes) : Prop :=
  constraint ≠ [] ∧ DomainSatisfies host constraint

def untilTerminator (text : Bytes) : Bytes :=
  text.takeWhile (fun octet => !hostTerminators.contains octet)

/-- What follows the first at-sign of the path, query and fragment, up to a delimiter. -/
def afterTailAt (tail : Bytes) : Bytes := untilTerminator ((afterFirst atSign tail).getD [])

def beforeColon (host : Bytes) : Bytes := host.takeWhile (· != colon)

section Cuts

theorem afterScheme_append {scheme rest : Bytes} (plain : colon ∉ scheme) :
    afterScheme (scheme ++ schemeSeparator ++ rest) = some rest := by
  induction scheme with
  | nil =>
      have starts : schemeSeparator.isPrefixOf (58 :: 47 :: 47 :: rest) = true := by
        rw [List.isPrefixOf_iff_prefix]
        exact ⟨rest, rfl⟩
      change afterScheme (58 :: 47 :: 47 :: rest) = some rest
      rw [afterScheme, if_pos starts]
      rfl
  | cons octet scheme ih =>
      rw [List.mem_cons, not_or] at plain
      have other : ¬ schemeSeparator.isPrefixOf (octet :: (scheme ++ schemeSeparator ++ rest)) = true := by
        rw [List.isPrefixOf_iff_prefix, schemeSeparator, List.cons_prefix_cons]
        exact fun starts => plain.1 starts.1
      rw [List.cons_append, List.cons_append, afterScheme, if_neg other]
      exact ih plain.2

theorem afterFirst_append {mark : UInt8} {front rest : Bytes} (absent : mark ∉ front) :
    afterFirst mark (front ++ rest) = afterFirst mark rest := by
  induction front with
  | nil => rfl
  | cons octet front ih =>
      rw [List.mem_cons, not_or] at absent
      rw [List.cons_append, afterFirst, if_neg (Ne.symm absent.1)]
      exact ih absent.2

theorem afterFirst_cut {mark : UInt8} {front back : Bytes} (absent : mark ∉ front) :
    afterFirst mark (front ++ mark :: back) = some back := by
  rw [afterFirst_append absent, afterFirst, if_pos rfl]

theorem afterFirst_none {mark : UInt8} {text : Bytes} (absent : mark ∉ text) :
    afterFirst mark text = none := by
  rw [← List.append_nil text, afterFirst_append absent]
  rfl

theorem untilTerminator_host {host rest : Bytes}
    (plain : ∀ octet ∈ host, octet ∉ [pathMark, queryMark, fragmentMark])
    (stops : untilTerminator rest = []) : untilTerminator (host ++ rest) = beforeColon host := by
  induction host with
  | nil => exact stops
  | cons octet host ih =>
      rw [List.forall_mem_cons] at plain
      have here : hostTerminators.contains octet = (octet == colon) := by
        have other := plain.1
        simp only [List.mem_cons, List.not_mem_nil, or_false, not_or] at other
        rw [Bool.eq_iff_iff, List.contains_iff_mem, beq_iff_eq]
        change octet ∈ [pathMark, queryMark, fragmentMark, colon] ↔ octet = colon
        simp [other]
      have later := ih plain.2
      simp only [untilTerminator, beforeColon, List.cons_append, List.takeWhile_cons, here] at later ⊢
      rw [later]
      rfl

theorem untilTerminator_opened (mark : UInt8) (part : Option Bytes) (rest : Bytes)
    (terminates : mark ∈ hostTerminators) (stops : untilTerminator rest = []) :
    untilTerminator (opened mark part ++ rest) = [] := by
  cases part with
  | none => exact stops
  | some text =>
      simp [opened, untilTerminator, terminates]

theorem untilTerminator_tail (uri : Uri) : untilTerminator uri.tail = [] := by
  have ending : untilTerminator (opened queryMark uri.query ++ opened fragmentMark uri.fragment) = [] := by
    apply untilTerminator_opened _ _ _ (by decide)
    rw [← List.append_nil (opened fragmentMark uri.fragment)]
    exact untilTerminator_opened _ _ _ (by decide) rfl
  rw [Uri.tail, List.append_assoc]
  rcases uri.pathRooted with empty | rooted
  · rw [empty]
    exact ending
  · obtain ⟨rest, shape⟩ := List.head?_eq_some_iff.mp rooted
    rw [shape, List.cons_append, untilTerminator, List.takeWhile_cons]
    rfl

/-- After the userinfo the matcher reads the host, up to a colon inside it. -/
theorem untilTerminator_authority (uri : Uri) :
    untilTerminator (uri.host ++ (opened colon uri.port ++ uri.tail)) = beforeColon uri.host := by
  apply untilTerminator_host
  · intro octet present inside
    apply uri.hostPlain octet present
    simp only [List.mem_cons, List.not_mem_nil, or_false] at inside ⊢
    tauto
  · exact untilTerminator_opened _ _ _ (by decide) (untilTerminator_tail uri)

theorem at_notMem_hostPort (uri : Uri) : atSign ∉ uri.host ++ opened colon uri.port := by
  rw [List.mem_append, not_or]
  refine ⟨fun present => uri.hostPlain _ present (by decide), ?_⟩
  cases port : uri.port with
  | none => exact List.not_mem_nil
  | some digits =>
      intro present
      rcases List.mem_cons.mp present with first | later
      · exact absurd first (by decide)
      · exact absurd (uri.portDigits digits port _ later).2 (by decide)

/-- What the matcher takes for the host. -/
theorem uriHost_text (uri : Uri) :
    (uri.AtAfterAuthority → uriHost uri.text = some (afterTailAt uri.tail)) ∧
      (¬ uri.AtAfterAuthority → uriHost uri.text = some (beforeColon uri.host)) := by
  have cut : uriHost uri.text = some (untilTerminator
      ((afterFirst atSign (uri.authority ++ uri.tail)).getD (uri.authority ++ uri.tail))) := by
    rw [uriHost, Uri.text, List.append_assoc _ uri.authority, afterScheme_append uri.schemePlain]
    rfl
  rw [cut]
  unfold Uri.AtAfterAuthority
  cases info : uri.userinfo with
  | some info' =>
      have authority : uri.authority ++ uri.tail =
          info' ++ atSign :: (uri.host ++ (opened colon uri.port ++ uri.tail)) := by
        simp [Uri.authority, info]
      rw [authority, afterFirst_cut (uri.userinfoPlain info' info), Option.getD_some,
        untilTerminator_authority]
      simp
  | none =>
      have authority : uri.authority = uri.host ++ opened colon uri.port := by
        simp [Uri.authority, info]
      rw [authority, afterFirst_append (at_notMem_hostPort uri)]
      by_cases present : atSign ∈ uri.tail
      · obtain ⟨front, back, shape, absent⟩ := List.eq_append_cons_of_mem present
        have found : afterFirst atSign uri.tail = some back := by
          rw [shape]
          exact afterFirst_cut absent
        simp [present, afterTailAt, found]
      · rw [afterFirst_none present, Option.getD_none, List.append_assoc,
          untilTerminator_authority]
        simp [present]

end Cuts

section Verdict

theorem matchesDotted_iff_front (text suffix : Bytes) :
    matchesDotted text suffix (dot :: suffix) = true ↔
      ∃ front, front ≠ [] ∧ lower text = front ++ lower (dot :: suffix) := by
  rw [matchesDotted_iff]
  constructor
  · intro proper
    obtain ⟨longer, front, joined⟩ := proper
    refine ⟨front, ?_, joined.symm⟩
    intro empty
    rw [empty, List.nil_append] at joined
    have lengths := congrArg List.length joined
    rw [lower_length, lower_length] at lengths
    omega
  · intro proper
    obtain ⟨front, nonempty, joined⟩ := proper
    refine ⟨?_, front, joined.symm⟩
    have lengths := congrArg List.length joined
    rw [List.length_append, lower_length, lower_length] at lengths
    have positive := List.length_pos_iff.mpr nonempty
    omega

/-- The last step of both matchers. -/
def matchesDomain (domain constraint : Bytes) : Bool :=
  match stripDot constraint with
  | some suffix => matchesDotted domain suffix constraint
  | none => eqIgnoreAsciiCase domain constraint

theorem matchesDomain_iff (domain constraint : Bytes) :
    matchesDomain domain constraint = true ↔ DomainSatisfies domain constraint := by
  unfold matchesDomain DomainSatisfies
  cases stripped : stripDot constraint with
  | none => simp [eqIgnoreAsciiCase_iff]
  | some suffix =>
      have shape := (stripDot_some_iff _ _).mp stripped
      simp only [reduceCtorEq, ne_eq, not_false_eq_true, false_implies, true_implies, true_and]
      rw [shape, matchesDotted_iff_front]

theorem matchesUriHost_iff (host constraint : Bytes) :
    matchesUriHost host constraint = true ↔ HostSatisfies host constraint := by
  rw [HostSatisfies, ← matchesDomain_iff]
  cases constraint with
  | nil => simp [matchesUriHost]
  | cons octet rest =>
      have read : matchesUriHost host (octet :: rest) = matchesDomain host (octet :: rest) := rfl
      simp [read]

theorem matchesRfc822Name_cut {subject domain constraint : Bytes} (plain : atSign ∉ constraint)
    (cut : afterFirst atSign subject = some domain) :
    matchesRfc822Name subject constraint = true ↔ DomainSatisfies domain constraint := by
  have host : ¬ constraint.contains atSign = true := by simpa using plain
  rw [← matchesDomain_iff, matchesRfc822Name, if_neg host, cut]
  rfl

theorem matchesUri_text_iff (uri : Uri) (constraint : Bytes) :
    (uri.AtAfterAuthority → (matchesUri uri.text constraint = true ↔
        HostSatisfies (afterTailAt uri.tail) constraint)) ∧
      (¬ uri.AtAfterAuthority → (matchesUri uri.text constraint = true ↔
        HostSatisfies (beforeColon uri.host) constraint)) := by
  have cut := uriHost_text uri
  unfold matchesUri
  constructor
  · intro late
    rw [cut.1 late]
    exact matchesUriHost_iff _ _
  · intro early
    rw [cut.2 early]
    exact matchesUriHost_iff _ _

theorem beforeColon_eq_iff (host : Bytes) : beforeColon host = host ↔ colon ∉ host := by
  rw [beforeColon, List.takeWhile_eq_self_iff]
  simp only [bne_iff_ne, ne_eq]
  constructor
  · exact fun other present => other colon present rfl
  · intro absent octet present same
    exact absent (same ▸ present)

theorem lower_beforeColon_iff (host : Bytes) :
    lower (beforeColon host) = lower host ↔ colon ∉ host := by
  rw [← beforeColon_eq_iff]
  constructor
  · intro same
    have lengths := congrArg List.length same
    rw [lower_length, lower_length] at lengths
    exact (List.takeWhile_prefix _).eq_of_length lengths
  · exact congrArg lower

theorem hostSatisfies_of_lower {host host' : Bytes} (same : lower host = lower host')
    (constraint : Bytes) : HostSatisfies host constraint ↔ HostSatisfies host' constraint := by
  unfold HostSatisfies DomainSatisfies
  rw [same]

/-- An ordinary host is told from any other by the constraint that is the host itself. -/
theorem lower_eq_iff_satisfies {host other : Bytes} (nonempty : host ≠ [])
    (plain : stripDot host = none) :
    lower other = lower host ↔
      ∀ constraint, HostSatisfies other constraint ↔ HostSatisfies host constraint := by
  constructor
  · exact fun same constraint => hostSatisfies_of_lower same constraint
  · intro agree
    have itself : HostSatisfies host host :=
      ⟨nonempty, fun _ => rfl, fun dotted => absurd plain dotted⟩
    exact ((agree host).mpr itself).2.1 plain

end Verdict

section Mailbox

theorem suffix_of_append_cons {ending front back : Bytes} {mark : UInt8} (absent : mark ∉ ending)
    (suffixed : ending <:+ front ++ mark :: back) : ending <:+ back := by
  have whole : mark :: back <:+ front ++ mark :: back := List.suffix_append _ _
  rcases List.suffix_or_suffix_of_suffix suffixed whole with shorter | longer
  · rcases List.suffix_cons_iff.mp shorter with same | within
    · rw [same] at absent
      exact absurd List.mem_cons_self absent
    · exact within
  · exact absurd (longer.subset List.mem_cons_self) absent

theorem lower_append_at (front back : Bytes) :
    lower (front ++ atSign :: back) = lower front ++ atSign :: lower back := by
  rw [lower, List.map_append, List.map_cons]
  rfl

/-- What the matcher reads after the first at-sign of a mailbox, when that is not the last:
for a constraint without one, only an ending of the domain matters. -/
theorem domainSatisfies_misread {front domain constraint : Bytes} (plain : atSign ∉ constraint) :
    DomainSatisfies (front ++ atSign :: domain) constraint ↔
      stripDot constraint ≠ none ∧ lower constraint <:+ lower domain := by
  have absent : atSign ∉ lower constraint := by
    rwa [mem_lower_iff _ _ (by decide)]
  rw [DomainSatisfies, lower_append_at]
  by_cases dotted : stripDot constraint = none
  · simp only [dotted, true_implies, ne_eq, not_true_eq_false, false_implies, and_true, false_and,
      iff_false]
    intro same
    rw [← same] at absent
    simp at absent
  · simp only [dotted, false_implies, ne_eq, not_false_eq_true, true_implies, true_and]
    constructor
    · intro proper
      obtain ⟨before, _, joined⟩ := proper
      exact suffix_of_append_cons absent ⟨before, joined.symm⟩
    · intro suffixed
      obtain ⟨before, joined⟩ := suffixed
      exact ⟨lower front ++ atSign :: before, by simp, by simp [← joined]⟩

/-- Matching at the last at-sign is the same for an ending that is not the whole domain. -/
theorem domainSatisfies_iff_suffix {domain constraint : Bytes}
    (other : lower domain ≠ lower constraint) :
    DomainSatisfies domain constraint ↔
      stripDot constraint ≠ none ∧ lower constraint <:+ lower domain := by
  rw [DomainSatisfies]
  by_cases dotted : stripDot constraint = none
  · simp [dotted, other]
  · simp only [dotted, false_implies, ne_eq, not_false_eq_true, true_implies, true_and]
    constructor
    · intro proper
      obtain ⟨front, _, joined⟩ := proper
      exact ⟨front, joined.symm⟩
    · intro suffixed
      obtain ⟨front, joined⟩ := suffixed
      refine ⟨front, ?_, joined.symm⟩
      intro empty
      rw [empty, List.nil_append] at joined
      exact other joined.symm

end Mailbox

/-- The verdict on a mailbox is that of its domain, unless the local part holds an at-sign and
the domain is the constraint. -/
theorem matchesRfc822Name_right_iff {localPart domain constraint : Bytes}
    (constraintPlain : atSign ∉ constraint) :
    (matchesRfc822Name (localPart ++ atSign :: domain) constraint = true ↔
        DomainSatisfies domain constraint) ↔
      ¬ (atSign ∈ localPart ∧ lower domain = lower constraint) := by
  by_cases quoted : atSign ∈ localPart
  · obtain ⟨front, back, shape, absent⟩ := List.eq_append_cons_of_mem quoted
    have cut : afterFirst atSign (localPart ++ atSign :: domain) =
        some (back ++ atSign :: domain) := by
      rw [shape, List.append_assoc, List.cons_append, afterFirst_cut absent]
    rw [matchesRfc822Name_cut constraintPlain cut, domainSatisfies_misread constraintPlain]
    by_cases same : lower domain = lower constraint
    · simp only [quoted, same, and_self, not_true_eq_false, iff_false, List.suffix_refl, and_true]
      rw [DomainSatisfies, same]
      by_cases dotted : stripDot constraint = none
      · simp [dotted]
      · simp [dotted]
    · rw [domainSatisfies_iff_suffix same]
      simp [same]
  · rw [matchesRfc822Name_cut constraintPlain (afterFirst_cut quoted)]
    simp [quoted]

/-- The verdict is that of the host unless an at-sign after the authority, or a colon inside
the host, makes the matcher read a text that the constraint tells from the host. For a host
that is neither empty nor starts with a period, it is so for every constraint just when the
text read is the host. -/
theorem matchesUri_right_iff (uri : Uri) :
    (∀ constraint, (matchesUri uri.text constraint = true ↔ HostSatisfies uri.host constraint) ↔
        (uri.AtAfterAuthority →
          (HostSatisfies (afterTailAt uri.tail) constraint ↔ HostSatisfies uri.host constraint)) ∧
        (¬ uri.AtAfterAuthority → colon ∈ uri.host →
          (HostSatisfies (beforeColon uri.host) constraint ↔
            HostSatisfies uri.host constraint))) ∧
      (uri.host ≠ [] → stripDot uri.host = none →
        ((∀ constraint,
            matchesUri uri.text constraint = true ↔ HostSatisfies uri.host constraint) ↔
          (uri.AtAfterAuthority → lower (afterTailAt uri.tail) = lower uri.host) ∧
          (¬ uri.AtAfterAuthority → colon ∉ uri.host))) := by
  by_cases late : uri.AtAfterAuthority
  · have verdict := fun constraint => (matchesUri_text_iff uri constraint).1 late
    simp only [verdict, late, true_implies, not_true_eq_false, false_implies, and_true, implies_true,
      true_and]
    exact fun nonempty plain => (lower_eq_iff_satisfies nonempty plain).symm
  · have verdict := fun constraint => (matchesUri_text_iff uri constraint).2 late
    simp only [verdict, late, false_implies, not_false_eq_true, true_implies, true_and]
    constructor
    · intro constraint
      by_cases inside : colon ∈ uri.host
      · simp only [inside, true_implies]
      · rw [(beforeColon_eq_iff uri.host).mpr inside]
        simp
    · intro nonempty plain
      rw [← lower_eq_iff_satisfies nonempty plain]
      exact lower_beforeColon_iff uri.host

namespace Concrete

/-- `http://evil.example/@good.example` -/
def evilUri : Uri where
  scheme := [104, 116, 116, 112]
  userinfo := none
  host := [101, 118, 105, 108, 46, 101, 120, 97, 109, 112, 108, 101]
  port := none
  path := [47, 64, 103, 111, 111, 100, 46, 101, 120, 97, 109, 112, 108, 101]
  query := none
  fragment := none
  schemePlain := by decide +kernel
  userinfoPlain := by simp
  hostPlain := by decide +kernel
  hostLiteral := fun inside => absurd inside (by decide)
  portDigits := by simp
  pathPlain := by decide +kernel
  pathRooted := .inr rfl
  queryPlain := by simp

/-- `good.example` -/
def goodHost : Bytes := [103, 111, 111, 100, 46, 101, 120, 97, 109, 112, 108, 101]

/-- `http://u@good.example:80/@evil` -/
def serviceUri : Uri where
  scheme := [104, 116, 116, 112]
  userinfo := some [117]
  host := goodHost
  port := some [56, 48]
  path := [47, 64, 101, 118, 105, 108]
  query := none
  fragment := none
  schemePlain := by decide +kernel
  userinfoPlain := by simp [atSign]
  hostPlain := by decide +kernel
  hostLiteral := fun inside => absurd inside (by decide)
  portDigits := by simp
  pathPlain := by decide +kernel
  pathRooted := .inr rfl
  queryPlain := by simp

/-- Behind a userinfo an at-sign in the path does no harm. -/
theorem serviceUri_read : matchesUri serviceUri.text goodHost = true := by
  have known : ¬ serviceUri.AtAfterAuthority := fun late => absurd late.1 (by decide)
  have exact := ((matchesUri_right_iff serviceUri).2 (by decide) (by decide)).mpr
    ⟨fun late => absurd late known, fun _ => by decide⟩
  exact (exact goodHost).mpr ⟨by decide, fun _ => rfl, fun dotted => absurd (by decide) dotted⟩

/-- `user@Good.example` -/
theorem plainMailbox_matched :
    matchesRfc822Name ([117, 115, 101, 114] ++ atSign :: 71 :: goodHost.drop 1) goodHost = true := by
  apply ((@matchesRfc822Name_right_iff [117, 115, 101, 114] (71 :: goodHost.drop 1) goodHost
    (by decide)).mpr (by decide)).mpr
  exact ⟨fun _ => by decide, fun dotted => absurd (by decide) dotted⟩

/-- The quoted local part of `"a@b"@good.example` hides the domain. -/
theorem quotedLocal_hides_domain :
    matchesRfc822Name ([34, 97, 64, 98, 34] ++ atSign :: goodHost) goodHost = false ∧
      DomainSatisfies goodHost goodHost := by
  refine ⟨by decide +kernel, fun _ => rfl, ?_⟩
  exact fun dotted => absurd (by decide) dotted

/-- An at-sign in the path hands the verdict to the text behind it. -/
theorem pathAt_misread :
    matchesUri evilUri.text goodHost = true ∧ ¬ HostSatisfies evilUri.host goodHost := by
  refine ⟨by decide +kernel, ?_⟩
  intro satisfied
  have same := satisfied.2.1 (by decide)
  revert same
  decide

end Concrete

end Pkix.Path
