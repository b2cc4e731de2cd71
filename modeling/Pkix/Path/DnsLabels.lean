import Pkix.Lib.Splitting
import Pkix.Path.Subtrees

/-! DNS constraints by labels: matching the end of a name octet by octet is adding labels on
the left of the constraint. -/

namespace Pkix.Path

open Splitting

def IsLabel (label : Bytes) : Prop := label ≠ [] ∧ dot ∉ label

instance (label : Bytes) : Decidable (IsLabel label) :=
  inferInstanceAs (Decidable (_ ∧ _))

/-- A DNS name by its labels, written with or without a period at the end. -/
structure DnsName where
  leading : List Bytes
  top : Bytes
  rooted : Bool
  leadingLabels : ∀ label ∈ leading, IsLabel label
  topLabel : IsLabel top

namespace DnsName

def ending (name : DnsName) : Bytes := name.top ++ if name.rooted then [dot] else []

def text (name : DnsName) : Bytes := addParts dot name.leading name.ending

end DnsName

/-- The text is the domain with these labels added on the left, each with its period. -/
def FormedFrom (text domain : Bytes) (added : List Bytes) : Prop :=
  (∀ label ∈ added, IsLabel label) ∧ lower text = lower (addParts dot added domain)

/-- No name satisfies the empty constraint. A constraint without a leading period allows any
number of added labels, one with a leading period asks for at least one. -/
structure DnsSatisfies (text constraint : Bytes) : Prop where
  nonempty : constraint ≠ []
  plain : stripDot constraint = none → ∃ added, FormedFrom text constraint added
  dotted : ∀ domain, stripDot constraint = some domain →
    ∃ added, added ≠ [] ∧ FormedFrom text domain added

section Labels

theorem lower_addParts (added : List Bytes) (domain : Bytes) :
    lower (addParts dot added domain) = addParts dot (added.map lower) (lower domain) := by
  induction added with
  | nil => rfl
  | cons label added ih =>
      have head : lower (label ++ dot :: addParts dot added domain) =
          lower label ++ dot :: lower (addParts dot added domain) := by
        rw [lower, List.map_append, List.map_cons]
        rfl
      rw [addParts, head, ih]
      rfl

theorem isLabel_lower {label : Bytes} (isLabel : IsLabel label) : IsLabel (lower label) := by
  refine ⟨?_, ?_⟩
  · intro empty
    exact isLabel.1 (List.map_eq_nil_iff.mp empty)
  · rw [mem_lower_iff _ _ (by decide)]
    exact isLabel.2

/-- Added labels leave the domain behind a period, with at least one octet in front. -/
theorem suffix_of_formedFrom {text domain : Bytes} {added : List Bytes} (some_added : added ≠ [])
    (formed : FormedFrom text domain added) :
    domain.length + 1 < text.length ∧ dot :: lower domain <:+ lower text := by
  obtain ⟨label, rest, shape⟩ := List.exists_cons_of_ne_nil some_added
  have isLabel := formed.1 label (by rw [shape]; exact List.mem_cons_self)
  have joined := formed.2
  rw [shape] at joined
  have positive := List.length_pos_iff.mpr isLabel.1
  have longer := length_addParts dot label rest domain
  have lengths := congrArg List.length joined
  rw [lower_length, lower_length] at lengths
  refine ⟨by omega, ?_⟩
  rw [joined, lower_addParts, List.map_cons]
  exact addParts_suffix dot _ _ _

theorem rooted_of_ending_cut (name : DnsName) {later back : Bytes}
    (cut : lower name.ending = later ++ dot :: back) : name.rooted = true ∧ back = [] := by
  have plain := (isLabel_lower name.topLabel).2
  unfold DnsName.ending at cut
  cases rooted : name.rooted with
  | false =>
      simp only [rooted, Bool.false_eq_true, if_false, List.append_nil] at cut
      rw [cut] at plain
      simp at plain
  | true =>
      have split : lower name.top ++ dot :: [] = later ++ dot :: back := by
        rw [← cut, rooted, lower, lower, if_pos rfl, List.map_append]
        rfl
      rcases cut_after_part plain split with ⟨_, empty⟩ | ⟨_, _, further⟩
      · exact ⟨rfl, empty⟩
      · simp at further

/-- A period of a DNS name ends a label, so what stands in front of it is labels. -/
theorem formedFrom_of_suffix (name : DnsName) {domain : Bytes}
    (suffixed : dot :: lower domain <:+ lower name.text) :
    ∃ added, added ≠ [] ∧ FormedFrom name.text domain added := by
  obtain ⟨front, joined⟩ := suffixed
  have cut : addParts dot (name.leading.map lower) (lower name.ending) =
      front ++ dot :: lower domain := by
    rw [joined, DnsName.text, lower_addParts]
  have plain : ∀ part ∈ name.leading.map lower, dot ∉ part := by
    intro part present
    obtain ⟨label, inside, rfl⟩ := List.mem_map.mp present
    exact (isLabel_lower (name.leadingLabels label inside)).2
  rcases addParts_cut plain cut with ⟨added, kept, shape, nonempty, behind⟩ | ⟨later, inEnding⟩
  · obtain ⟨first, second, split, same, same'⟩ := List.map_eq_append_iff.mp shape
    refine ⟨first, ?_, ?_, ?_⟩
    · intro empty
      rw [empty] at same
      exact nonempty same.symm
    · intro label inside
      exact name.leadingLabels label (by rw [split]; exact List.mem_append_left _ inside)
    · rw [lower_addParts, behind, ← addParts_append, same, ← shape, DnsName.text, lower_addParts]
  · -- the period at the end of the whole name
    obtain ⟨rooted, empty⟩ := rooted_of_ending_cut name inEnding
    have domainEmpty : domain = [] := List.map_eq_nil_iff.mp empty
    refine ⟨name.leading ++ [name.top], by simp, ?_, ?_⟩
    · intro label inside
      rcases List.mem_append.mp inside with leading | top
      · exact name.leadingLabels label leading
      · rw [List.mem_singleton.mp top]
        exact name.topLabel
    · rw [DnsName.text, DnsName.ending, rooted, domainEmpty, addParts_append]
      rfl

theorem matchesDnsName_plain_iff (name : DnsName) {constraint : Bytes}
    (nonempty : constraint ≠ []) (plain : stripDot constraint = none) :
    matchesDnsName name.text constraint = true ↔ ∃ added, FormedFrom name.text constraint added := by
  rw [matchesDnsName_iff]
  simp only [ne_eq, nonempty, not_false_eq_true, plain, not_true_eq_false, false_and, true_and,
    false_or]
  constructor
  · intro matched
    rcases matched with same | ⟨_, suffixed⟩
    · exact ⟨[], List.forall_mem_nil _, same⟩
    · obtain ⟨added, _, formed⟩ := formedFrom_of_suffix name suffixed
      exact ⟨added, formed⟩
  · intro formed
    obtain ⟨added, formed⟩ := formed
    by_cases none_added : added = []
    · rw [none_added] at formed
      exact .inl formed.2
    · exact .inr (suffix_of_formedFrom none_added formed)

theorem matchesDnsName_dotted_iff (name : DnsName) (domain : Bytes) :
    matchesDnsName name.text (dot :: domain) = true ↔
      ∃ added, added ≠ [] ∧ FormedFrom name.text domain added := by
  have dotted : stripDot (dot :: domain) = some domain := (stripDot_some_iff _ _).mpr rfl
  have folded : lower (dot :: domain) = dot :: lower domain := rfl
  rw [matchesDnsName_iff, dotted, folded]
  simp only [ne_eq, reduceCtorEq, not_false_eq_true, true_and, false_and, or_false,
    List.length_cons]
  constructor
  · intro matched
    exact formedFrom_of_suffix name matched.2
  · intro formed
    obtain ⟨added, some_added, formed⟩ := formed
    exact suffix_of_formedFrom some_added formed

end Labels

/-- DNS constraints by labels, for every name and constraint. -/
theorem matchesDnsName_labels_iff (name : DnsName) (constraint : Bytes) :
    matchesDnsName name.text constraint = true ↔ DnsSatisfies name.text constraint := by
  by_cases empty : constraint = []
  · rw [empty]
    constructor
    · intro matched
      cases matched
    · intro satisfied
      exact absurd rfl satisfied.nonempty
  · cases stripped : stripDot constraint with
    | none =>
        rw [matchesDnsName_plain_iff name empty stripped]
        constructor
        · intro formed
          exact ⟨empty, fun _ => formed, fun domain dotted => by rw [stripped] at dotted; cases dotted⟩
        · exact fun satisfied => satisfied.plain stripped
    | some domain =>
        rw [(stripDot_some_iff _ _).mp stripped, matchesDnsName_dotted_iff]
        have dotted : stripDot (dot :: domain) = some domain := (stripDot_some_iff _ _).mpr rfl
        constructor
        · intro formed
          refine ⟨List.cons_ne_nil _ _, fun plain => ?_, fun domain' dotted' => ?_⟩
          · rw [dotted] at plain
            cases plain
          · rw [dotted] at dotted'
            rw [← Option.some.inj dotted']
            exact formed
        · exact fun satisfied => satisfied.dotted domain dotted

namespace Concrete

/-- `example.com` -/
def exampleCom : DnsName where
  leading := [[101, 120, 97, 109, 112, 108, 101]]
  top := [99, 111, 109]
  rooted := false
  leadingLabels := by decide
  topLabel := by decide

/-- The empty constraint is met by no name, though every name is labels added to it. -/
theorem emptyConstraint_unmet :
    matchesDnsName exampleCom.text [] = false ∧
      ¬ ∀ name : DnsName, matchesDnsName name.text [] = true := by
  have unmet : matchesDnsName exampleCom.text [] = false := rfl
  refine ⟨unmet, ?_⟩
  intro met
  rw [met exampleCom] at unmet
  cases unmet

end Concrete

end Pkix.Path
