import Pkix.Path.Names
import Mathlib.Data.List.Infix
import Mathlib.Data.List.TakeWhile

/-! Name forms and the test whether a name lies inside a constraint subtree. -/

namespace Pkix.Path

def eqIgnoreAsciiCase (a b : Bytes) : Bool :=
  a.map toAsciiLowercase == b.map toAsciiLowercase

def dot : UInt8 := 46
def atSign : UInt8 := 64

structure NcTypeMask where
  bits : BitVec 32
  deriving DecidableEq, Repr

namespace NcTypeMask

def empty : NcTypeMask := ⟨0⟩
def rfc822 : NcTypeMask := ⟨1⟩
def dns : NcTypeMask := ⟨2⟩
def directoryName : NcTypeMask := ⟨4⟩
def uri : NcTypeMask := ⟨8⟩
def ipAddress : NcTypeMask := ⟨16⟩

def intersects (a b : NcTypeMask) : Bool := a.bits &&& b.bits != 0

def union (a b : NcTypeMask) : NcTypeMask := ⟨a.bits ||| b.bits⟩

end NcTypeMask

def nameTypeBit : GeneralName → NcTypeMask
  | .rfc822Name _ => .rfc822
  | .dnsName _ => .dns
  | .directoryName _ => .directoryName
  | .uniformResourceIdentifier _ => .uri
  | .ipAddress _ => .ipAddress
  | _ => .empty

def dnWithinSubtree : (subject constraint : Name) → Bool
  | _, [] => true
  | [], _ :: _ => false
  | subjectRdn :: subject, constraintRdn :: constraint =>
      constraintRdn.length == subjectRdn.length && rdnCovers constraintRdn subjectRdn &&
        dnWithinSubtree subject constraint

def sameNcVariant (a b : GeneralName) : Bool :=
  nameTypeBit a != .empty && nameTypeBit a == nameTypeBit b

/-- The rest of a constraint after one leading period. -/
def stripDot : Bytes → Option Bytes
  | [] => none
  | octet :: rest => if octet = dot then some rest else none

/-- The leading-dot rule shared by the DNS, mailbox and URI matchers: the
apex is excluded and the text must end with the whole dotted constraint. -/
def matchesDotted (text suffix constraint : Bytes) : Bool :=
  if eqIgnoreAsciiCase text suffix then false
  else
    decide (constraint.length < text.length) &&
      eqIgnoreAsciiCase (text.drop (text.length - constraint.length)) constraint

def matchesDnsName (subject constraint : Bytes) : Bool :=
  if constraint.isEmpty then false
  else
    match stripDot constraint with
    | some suffix => matchesDotted subject suffix constraint
    | none =>
        eqIgnoreAsciiCase subject constraint ||
          (decide (constraint.length + 1 < subject.length) &&
            subject[subject.length - constraint.length - 1]? == some dot &&
            eqIgnoreAsciiCase (subject.drop (subject.length - constraint.length)) constraint)

/-- The text after the first separator. -/
def afterFirst (separator : UInt8) : Bytes → Option Bytes
  | [] => none
  | octet :: rest => if octet = separator then some rest else afterFirst separator rest

def matchesRfc822Name (subject constraint : Bytes) : Bool :=
  if constraint.contains atSign then eqIgnoreAsciiCase subject constraint
  else
    match afterFirst atSign subject with
    | none => false
    | some domain =>
        match stripDot constraint with
        | some suffix => matchesDotted domain suffix constraint
        | none => eqIgnoreAsciiCase domain constraint

def matchesUriHost (host constraint : Bytes) : Bool :=
  if constraint.isEmpty then false
  else
    match stripDot constraint with
    | some suffix => matchesDotted host suffix constraint
    | none => eqIgnoreAsciiCase host constraint

def schemeSeparator : Bytes := [58, 47, 47]

def hostTerminators : Bytes := [47, 63, 35, 58]

def afterScheme : Bytes → Option Bytes
  | [] => none
  | octet :: rest =>
      if schemeSeparator.isPrefixOf (octet :: rest) then some (rest.drop 2)
      else afterScheme rest

/-- The host as the matcher cuts it out of a URI. -/
def uriHost (uri : Bytes) : Option Bytes :=
  match afterScheme uri with
  | none => none
  | some rest =>
      some (((afterFirst atSign rest).getD rest).takeWhile
        (fun octet => !hostTerminators.contains octet))

def matchesUri (subjectUri constraint : Bytes) : Bool :=
  match uriHost subjectUri with
  | none => false
  | some host => matchesUriHost host constraint

def matchesMasked : Bytes → Bytes → Bytes → Bool
  | octet :: subject, address :: addresses, mask :: masks =>
      octet &&& mask == address &&& mask && matchesMasked subject addresses masks
  | _, _, _ => true

def matchesIpAddress (subject constraint : Bytes) : Bool :=
  if constraint.length = 8 then
    decide (subject.length = 4) && matchesMasked subject (constraint.take 4) (constraint.drop 4)
  else if constraint.length = 32 then
    decide (subject.length = 16) &&
      matchesMasked subject (constraint.take 16) (constraint.drop 16)
  else false

def nameMatchesSubtree (name : GeneralName) (subtree : GeneralSubtree) : Bool :=
  match name, subtree.base with
  | .dnsName subject, .dnsName constraint => matchesDnsName subject.bytes constraint.bytes
  | .directoryName subject, .directoryName constraint => dnWithinSubtree subject constraint
  | .rfc822Name subject, .rfc822Name constraint =>
      matchesRfc822Name subject.bytes constraint.bytes
  | .uniformResourceIdentifier subject, .uniformResourceIdentifier constraint =>
      matchesUri subject.bytes constraint.bytes
  | .ipAddress subject, .ipAddress constraint => matchesIpAddress subject constraint
  | _, _ => false

/-- One of the five name forms the matcher processes. -/
def Processed (name : GeneralName) : Prop := nameTypeBit name ≠ .empty

instance (name : GeneralName) : Decidable (Processed name) :=
  inferInstanceAs (Decidable (_ ≠ _))

def lower (text : Bytes) : Bytes := text.map toAsciiLowercase

theorem eqIgnoreAsciiCase_iff (a b : Bytes) :
    eqIgnoreAsciiCase a b = true ↔ lower a = lower b := by
  simp [eqIgnoreAsciiCase, lower]

theorem lower_length (text : Bytes) : (lower text).length = text.length :=
  List.length_map ..

/-- Case folding neither produces nor loses a character that is not a letter. -/
theorem toAsciiLowercase_eq_iff (octet mark : UInt8) (small : mark < 65) :
    toAsciiLowercase octet = mark ↔ octet = mark := by
  unfold toAsciiLowercase
  split
  · rename_i letter
    have shifted : octet + 32 ≠ mark := by
      intro same
      have value := congrArg UInt8.toNat same
      rw [UInt8.toNat_add] at value
      have first := UInt8.le_iff_toNat_le.mp letter.1
      have last := UInt8.le_iff_toNat_le.mp letter.2
      have bound := UInt8.lt_iff_toNat_lt.mp small
      simp at value first last bound
      omega
    have itself : octet ≠ mark := by
      rintro rfl
      exact absurd (UInt8.lt_of_lt_of_le small letter.1) (UInt8.lt_irrefl octet)
    simp [shifted, itself]
  · rfl

theorem mem_lower_iff (text : Bytes) (mark : UInt8) (small : mark < 65) :
    mark ∈ lower text ↔ mark ∈ text := by
  simp only [lower, List.mem_map, toAsciiLowercase_eq_iff _ mark small, exists_eq_right]

theorem stripDot_some_iff (text rest : Bytes) : stripDot text = some rest ↔ text = dot :: rest := by
  cases text with
  | nil => simp [stripDot]
  | cons octet tail =>
      by_cases leading : octet = dot <;> simp [stripDot, leading]

theorem stripDot_lower {a b : Bytes} (same : lower a = lower b) :
    stripDot a = none ↔ stripDot b = none := by
  have small : dot < 65 := by decide
  cases a with
  | nil =>
      cases b with
      | nil => rfl
      | cons octet tail => simp [lower] at same
  | cons octetA tailA =>
      cases b with
      | nil => simp [lower] at same
      | cons octetB tailB =>
          simp only [lower, List.map_cons, List.cons.injEq] at same
          have heads : octetA = dot ↔ octetB = dot := by
            rw [← toAsciiLowercase_eq_iff octetA dot small, same.1,
              toAsciiLowercase_eq_iff octetB dot small]
          simp [stripDot, heads]

/-- Comparing the last octets of a text is comparing suffixes after folding. -/
theorem eqIgnoreAsciiCase_drop_iff (text tail : Bytes) (fits : tail.length ≤ text.length) :
    eqIgnoreAsciiCase (text.drop (text.length - tail.length)) tail = true ↔
      lower tail <:+ lower text := by
  rw [eqIgnoreAsciiCase_iff]
  constructor
  · intro same
    refine ⟨lower (text.take (text.length - tail.length)), ?_⟩
    rw [← same, lower, lower, lower, ← List.map_append, List.take_append_drop]
  · rintro ⟨front, joined⟩
    have lengths := congrArg List.length joined
    simp only [List.length_append, lower_length] at lengths
    have cut : text.length - tail.length = front.length := by omega
    have dropped : lower (text.drop (text.length - tail.length)) =
        (lower text).drop (text.length - tail.length) := by
      simp [lower, List.map_drop]
    rw [dropped, ← joined, cut, List.drop_left]

theorem matchesDotted_iff (text suffix : Bytes) :
    matchesDotted text suffix (dot :: suffix) = true ↔
      (dot :: suffix).length < text.length ∧ lower (dot :: suffix) <:+ lower text := by
  unfold matchesDotted
  by_cases apex : eqIgnoreAsciiCase text suffix = true
  · have lengths := congrArg List.length ((eqIgnoreAsciiCase_iff _ _).mp apex)
    rw [lower_length, lower_length] at lengths
    simp only [apex, if_true, Bool.false_eq_true, List.length_cons, false_iff, not_and]
    omega
  · rw [if_neg apex, Bool.and_eq_true, decide_eq_true_eq]
    constructor
    · rintro ⟨longer, same⟩
      exact ⟨longer, (eqIgnoreAsciiCase_drop_iff _ _ longer.le).mp same⟩
    · rintro ⟨longer, suffixed⟩
      exact ⟨longer, (eqIgnoreAsciiCase_drop_iff _ _ longer.le).mpr suffixed⟩

theorem labelBoundary_iff (subject constraint : Bytes)
    (longer : constraint.length + 1 < subject.length) :
    (subject[subject.length - constraint.length - 1]? == some dot &&
        eqIgnoreAsciiCase (subject.drop (subject.length - constraint.length)) constraint) = true ↔
      dot :: lower constraint <:+ lower subject := by
  have small : dot < 65 := by decide
  have fits : constraint.length ≤ subject.length := by omega
  rw [Bool.and_eq_true, beq_iff_eq, eqIgnoreAsciiCase_drop_iff _ _ fits]
  constructor
  · rintro ⟨boundary, front, joined⟩
    have lengths := congrArg List.length joined
    simp only [List.length_append, lower_length] at lengths
    have folded : (lower subject)[subject.length - constraint.length - 1]? = some dot := by
      rw [lower, List.getElem?_map, boundary]
      exact congrArg some ((toAsciiLowercase_eq_iff dot dot small).mpr rfl)
    rw [← joined, List.getElem?_append_left (by omega)] at folded
    have last : front.getLast? = some dot := by
      rw [List.getLast?_eq_getElem?]
      have index : front.length - 1 = subject.length - constraint.length - 1 := by omega
      rw [index]
      exact folded
    obtain ⟨body, rfl⟩ := List.getLast?_eq_some_iff.mp last
    exact ⟨body, by rw [← joined]; simp⟩
  · rintro ⟨front, joined⟩
    have lengths := congrArg List.length joined
    simp only [List.length_append, List.length_cons, lower_length] at lengths
    refine ⟨?_, front ++ [dot], by rw [← joined]; simp⟩
    have folded : (lower subject)[subject.length - constraint.length - 1]? = some dot := by
      have index : subject.length - constraint.length - 1 = front.length := by omega
      rw [← joined, index]
      simp
    rw [lower, List.getElem?_map] at folded
    obtain ⟨octet, located, image⟩ := Option.map_eq_some_iff.mp folded
    rw [located, (toAsciiLowercase_eq_iff octet dot small).mp image]

/-- A DNS constraint with a leading period asks for a longer name with that
ending; one without asks for the name itself or for added labels. -/
theorem matchesDnsName_iff (subject constraint : Bytes) :
    matchesDnsName subject constraint = true ↔
      constraint ≠ [] ∧
        ((stripDot constraint ≠ none ∧ constraint.length < subject.length ∧
            lower constraint <:+ lower subject) ∨
          (stripDot constraint = none ∧
            (lower subject = lower constraint ∨
              (constraint.length + 1 < subject.length ∧
                dot :: lower constraint <:+ lower subject)))) := by
  unfold matchesDnsName
  cases constraint with
  | nil => simp
  | cons octet rest =>
      cases stripped : stripDot (octet :: rest) with
      | some suffix =>
          have shape := (stripDot_some_iff _ _).mp stripped
          simp only [List.isEmpty_cons, Bool.false_eq_true, if_false, reduceCtorEq, ne_eq,
            not_false_eq_true, true_and, false_and, or_false]
          rw [shape, matchesDotted_iff]
      | none =>
          simp only [List.isEmpty_cons, Bool.false_eq_true, if_false, ne_eq, reduceCtorEq,
            not_false_eq_true, not_true_eq_false, true_and, false_and, false_or, Bool.or_eq_true,
            eqIgnoreAsciiCase_iff]
          refine or_congr Iff.rfl ?_
          rw [Bool.and_assoc, Bool.and_eq_true, decide_eq_true_eq]
          exact and_congr_right (labelBoundary_iff subject (octet :: rest))

theorem matchesDnsName_suffix {subject constraint : Bytes}
    (matched : matchesDnsName subject constraint = true) :
    lower constraint <:+ lower subject ∧ constraint.length ≤ subject.length := by
  rcases (matchesDnsName_iff _ _).mp matched with ⟨_, dotted | plain⟩
  · exact ⟨dotted.2.2, dotted.2.1.le⟩
  · rcases plain.2 with same | added
    · rw [same, ← lower_length subject, same, lower_length]
      exact ⟨List.suffix_refl _, le_refl _⟩
    · exact ⟨(List.suffix_cons _ _).trans added.2, by omega⟩

theorem matchesDnsName_trans {subject middle constraint : Bytes}
    (inner : matchesDnsName subject middle = true)
    (outer : matchesDnsName middle constraint = true) :
    matchesDnsName subject constraint = true := by
  have ending := matchesDnsName_suffix inner
  rw [matchesDnsName_iff] at outer ⊢
  refine ⟨outer.1, ?_⟩
  rcases outer.2 with dotted | ⟨plain, same | added⟩
  · exact .inl ⟨dotted.1, by omega, dotted.2.2.trans ending.1⟩
  · -- the two constraints are equal up to case, so both lack the leading period
    have middlePlain : stripDot middle = none := (stripDot_lower same).mpr plain
    rcases ((matchesDnsName_iff _ _).mp inner).2 with dotted | ⟨_, inner⟩
    · exact absurd middlePlain dotted.1
    · have lengths : middle.length = constraint.length := by
        rw [← lower_length middle, same, lower_length]
      rw [same, lengths] at inner
      exact .inr ⟨plain, inner⟩
  · exact .inr ⟨plain, .inr ⟨by omega, added.2.trans ending.1⟩⟩

theorem afterFirst_lower {a b : Bytes} (separator : UInt8) (small : separator < 65)
    (same : lower a = lower b) :
    (afterFirst separator a).map lower = (afterFirst separator b).map lower := by
  induction a generalizing b with
  | nil =>
      cases b with
      | nil => rfl
      | cons octet tail => simp [lower] at same
  | cons octetA tailA ih =>
      cases b with
      | nil => simp [lower] at same
      | cons octetB tailB =>
          simp only [lower, List.map_cons, List.cons.injEq] at same
          have heads : octetA = separator ↔ octetB = separator := by
            rw [← toAsciiLowercase_eq_iff octetA separator small, same.1,
              toAsciiLowercase_eq_iff octetB separator small]
          by_cases here : octetA = separator
          · simp [afterFirst, heads.mp here, here, lower, same.2]
          · have there : octetB ≠ separator := fun equal => here (heads.mpr equal)
            simpa [afterFirst, here, there] using ih same.2

theorem matchesDotted_lower {a b : Bytes} (suffix constraint : Bytes)
    (same : lower a = lower b) :
    matchesDotted a suffix constraint = matchesDotted b suffix constraint := by
  have lengths : a.length = b.length := by
    rw [← lower_length a, same, lower_length]
  have apex : eqIgnoreAsciiCase a suffix = eqIgnoreAsciiCase b suffix := by
    rw [Bool.eq_iff_iff, eqIgnoreAsciiCase_iff, eqIgnoreAsciiCase_iff, same]
  have ending (count : Nat) : eqIgnoreAsciiCase (a.drop count) constraint =
      eqIgnoreAsciiCase (b.drop count) constraint := by
    have folded : lower (a.drop count) = lower (b.drop count) := by
      simp only [lower, List.map_drop] at same ⊢
      rw [same]
    rw [Bool.eq_iff_iff, eqIgnoreAsciiCase_iff, eqIgnoreAsciiCase_iff, folded]
  unfold matchesDotted
  rw [apex, lengths, ending]

/-- The mailbox matcher does not see the letter case of the subject. -/
theorem matchesRfc822Name_lower {a b : Bytes} (constraint : Bytes) (same : lower a = lower b) :
    matchesRfc822Name a constraint = matchesRfc822Name b constraint := by
  have whole (c : Bytes) {x y : Bytes} (folded : lower x = lower y) :
      eqIgnoreAsciiCase x c = eqIgnoreAsciiCase y c := by
    rw [Bool.eq_iff_iff, eqIgnoreAsciiCase_iff, eqIgnoreAsciiCase_iff, folded]
  have domains := afterFirst_lower atSign (by decide) same
  unfold matchesRfc822Name
  rw [whole constraint same]
  cases left : afterFirst atSign a with
  | none =>
      rw [left, Option.map_none, eq_comm, Option.map_eq_none_iff] at domains
      rw [domains]
  | some domainA =>
      rw [left, Option.map_some, eq_comm] at domains
      obtain ⟨domainB, right, folded⟩ := Option.map_eq_some_iff.mp domains
      rw [right]
      cases stripped : stripDot constraint with
      | none => simp only [whole constraint folded]
      | some suffix => simp only [matchesDotted_lower suffix constraint folded]

theorem afterFirst_mem {text rest : Bytes} {separator : UInt8}
    (found : afterFirst separator text = some rest) : separator ∈ text := by
  induction text with
  | nil => simp [afterFirst] at found
  | cons octet tail ih =>
      by_cases here : octet = separator
      · simp [here]
      · rw [afterFirst, if_neg here] at found
        exact List.mem_cons_of_mem _ (ih found)

/-- A constraint that lies inside another one is a mailbox. -/
theorem atSign_mem_of_matches {middle constraint : Bytes}
    (outer : matchesRfc822Name middle constraint = true) : atSign ∈ middle := by
  unfold matchesRfc822Name at outer
  split at outer
  · rename_i specific
    rw [List.contains_iff_mem, ← mem_lower_iff _ _ (by decide)] at specific
    rw [← mem_lower_iff _ _ (by decide), (eqIgnoreAsciiCase_iff _ _).mp outer]
    exact specific
  · cases found : afterFirst atSign middle with
    | none => simp [found] at outer
    | some domain => exact afterFirst_mem found

theorem lower_of_matches_mailbox {subject mailbox : Bytes} (holdsAt : atSign ∈ mailbox)
    (matched : matchesRfc822Name subject mailbox = true) : lower subject = lower mailbox := by
  rw [matchesRfc822Name, if_pos (List.contains_iff_mem.mpr holdsAt)] at matched
  exact (eqIgnoreAsciiCase_iff _ _).mp matched

theorem matchesRfc822Name_trans {subject middle constraint : Bytes}
    (inner : matchesRfc822Name subject middle = true)
    (outer : matchesRfc822Name middle constraint = true) :
    matchesRfc822Name subject constraint = true := by
  have same := lower_of_matches_mailbox (atSign_mem_of_matches outer) inner
  rw [matchesRfc822Name_lower constraint same]
  exact outer

theorem afterScheme_colon {uri rest : Bytes} (found : afterScheme uri = some rest) :
    (58 : UInt8) ∈ uri := by
  induction uri with
  | nil => simp [afterScheme] at found
  | cons octet tail ih =>
      by_cases here : schemeSeparator.isPrefixOf (octet :: tail) = true
      · have first := (List.isPrefixOf_iff_prefix.mp here).subset
        exact first (by decide : (58 : UInt8) ∈ schemeSeparator)
      · rw [afterScheme, if_neg here] at found
        exact List.mem_cons_of_mem _ (ih found)

theorem matchesUriHost_suffix {host constraint : Bytes}
    (matched : matchesUriHost host constraint = true) : lower constraint <:+ lower host := by
  unfold matchesUriHost at matched
  split at matched
  · simp at matched
  · cases stripped : stripDot constraint with
    | some suffix =>
        rw [stripped] at matched
        have shape := (stripDot_some_iff _ _).mp stripped
        subst shape
        exact ((matchesDotted_iff _ _).mp matched).2
    | none =>
        rw [stripped] at matched
        rw [(eqIgnoreAsciiCase_iff _ _).mp matched]

theorem colon_notMem_uriHost {uri host : Bytes} (cut : uriHost uri = some host) :
    (58 : UInt8) ∉ host := by
  intro colon
  unfold uriHost at cut
  cases found : afterScheme uri with
  | none => simp [found] at cut
  | some rest =>
      simp only [found, Option.some.injEq] at cut
      rw [← cut] at colon
      have kept := List.mem_takeWhile_imp colon
      simp [hostTerminators] at kept

/-- A constraint that is itself a URI with a scheme holds a colon, and no host
does: such a constraint matches nothing. -/
theorem matchesUri_not_nested {subject middle constraint : Bytes}
    (inner : matchesUri subject middle = true) : matchesUri middle constraint = false := by
  rw [Bool.eq_false_iff]
  intro outer
  have colon : (58 : UInt8) ∈ middle := by
    unfold matchesUri uriHost at outer
    cases found : afterScheme middle with
    | none => simp [found] at outer
    | some rest => exact afterScheme_colon found
  unfold matchesUri at inner
  cases cut : uriHost subject with
  | none => simp [cut] at inner
  | some host =>
      rw [cut] at inner
      have inside := (matchesUriHost_suffix inner).subset
        ((mem_lower_iff _ _ (by decide)).mpr colon)
      exact colon_notMem_uriHost cut ((mem_lower_iff _ _ (by decide)).mp inside)

theorem matchesUri_trans {subject middle constraint : Bytes}
    (inner : matchesUri subject middle = true)
    (outer : matchesUri middle constraint = true) :
    matchesUri subject constraint = true := by
  rw [matchesUri_not_nested inner] at outer
  cases outer

theorem matchesIpAddress_length {subject constraint : Bytes}
    (matched : matchesIpAddress subject constraint = true) :
    subject.length = 4 ∧ constraint.length = 8 ∨ subject.length = 16 ∧ constraint.length = 32 := by
  unfold matchesIpAddress at matched
  split at matched
  · rename_i short
    simp only [Bool.and_eq_true, decide_eq_true_eq] at matched
    exact .inl ⟨matched.1, short⟩
  · split at matched
    · rename_i long
      simp only [Bool.and_eq_true, decide_eq_true_eq] at matched
      exact .inr ⟨matched.1, long⟩
    · cases matched

/-- An address is 4 or 16 octets and a constraint 8 or 32, so no constraint base
lies inside another constraint. -/
theorem matchesIpAddress_not_nested {subject middle constraint : Bytes}
    (inner : matchesIpAddress subject middle = true) :
    matchesIpAddress middle constraint = false := by
  rw [Bool.eq_false_iff]
  intro outer
  have above := matchesIpAddress_length inner
  have below := matchesIpAddress_length outer
  omega

theorem matchesIpAddress_trans {subject middle constraint : Bytes}
    (inner : matchesIpAddress subject middle = true)
    (outer : matchesIpAddress middle constraint = true) :
    matchesIpAddress subject constraint = true := by
  rw [matchesIpAddress_not_nested inner] at outer
  cases outer

theorem dnWithinSubtree_trans {subject middle constraint : Name}
    (inner : dnWithinSubtree subject middle = true)
    (outer : dnWithinSubtree middle constraint = true) :
    dnWithinSubtree subject constraint = true := by
  induction constraint generalizing subject middle with
  | nil => simp [dnWithinSubtree]
  | cons constraintRdn constraint ih =>
      cases middle with
      | nil => simp [dnWithinSubtree] at outer
      | cons middleRdn middle =>
          cases subject with
          | nil => simp [dnWithinSubtree] at inner
          | cons subjectRdn subject =>
              simp only [dnWithinSubtree, Bool.and_eq_true, beq_iff_eq] at inner outer ⊢
              exact ⟨⟨outer.1.1.trans inner.1.1, rdnCovers_trans outer.1.2 inner.1.2⟩,
                ih inner.2 outer.2⟩

theorem nameMatchesSubtree_variant {name : GeneralName} {subtree : GeneralSubtree}
    (matched : nameMatchesSubtree name subtree = true) :
    nameTypeBit name = nameTypeBit subtree.base ∧ Processed name := by
  obtain ⟨base, minimum, maximum⟩ := subtree
  cases name <;> cases base <;> simp only [nameMatchesSubtree, Bool.false_eq_true] at matched <;>
    exact ⟨rfl, by simp only [Processed, nameTypeBit]; decide⟩

/-- Containment of subtrees, as the code decides it, is sound for every form: a
name inside a subtree whose base lies inside another subtree is inside that one. -/
theorem nameMatchesSubtree_trans {name : GeneralName} {middle outerTree : GeneralSubtree}
    (inner : nameMatchesSubtree name middle = true)
    (outer : nameMatchesSubtree middle.base outerTree = true) :
    nameMatchesSubtree name outerTree = true := by
  obtain ⟨middleBase, _, _⟩ := middle
  obtain ⟨outerBase, _, _⟩ := outerTree
  cases middleBase <;> cases outerBase <;>
    simp only [nameMatchesSubtree, Bool.false_eq_true] at outer <;>
    cases name <;> simp only [nameMatchesSubtree, Bool.false_eq_true] at inner ⊢
  · exact matchesRfc822Name_trans inner outer
  · exact matchesDnsName_trans inner outer
  · exact dnWithinSubtree_trans inner outer
  · exact matchesUri_trans inner outer
  · exact matchesIpAddress_trans inner outer

end Pkix.Path
