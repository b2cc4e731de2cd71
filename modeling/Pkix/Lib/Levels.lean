import Mathlib.Tactic.Common

/-! Flat lists of nodes with a depth: removal of nodes without children, upwards from
a bottom level, and removal of nodes without parents, downwards from a top level. -/

namespace Pkix.Levels

variable {α : Type} (depth : α → Nat)

section Up

variable (child : α → α → Bool)

def hasChild (nodes : List α) (level : Nat) (node : α) : Bool :=
  nodes.any (fun other => depth other == level && child node other)

/-- Remove, level by level from `bottom - 1` up to level 1, the nodes without a child
one level down. -/
def pruneAbove : (bottom : Nat) → List α → List α
  | 0, nodes => nodes
  | level + 1, nodes =>
      if level = 0 then nodes
      else
        pruneAbove level (nodes.filter (fun node =>
          depth node != level || hasChild depth child nodes (level + 1) node))

/-- A chain of children leads from the node down to the bottom level. -/
inductive Reaches (nodes : List α) (bottom : Nat) : α → Prop
  | here {node : α} (member : node ∈ nodes) (atBottom : depth node = bottom) :
      Reaches nodes bottom node
  | down {node other : α} (member : node ∈ nodes) (below : Reaches nodes bottom other)
      (next : depth other = depth node + 1) (parent : child node other = true) :
      Reaches nodes bottom node

variable {depth child} {nodes : List α} {bottom : Nat} {node : α}

theorem Reaches.mem (reaches : Reaches depth child nodes bottom node) : node ∈ nodes := by
  cases reaches with
  | here member _ => exact member
  | down member _ _ _ => exact member

theorem Reaches.depth_le (reaches : Reaches depth child nodes bottom node) :
    depth node ≤ bottom := by
  induction reaches with
  | here _ atBottom => omega
  | down _ _ next _ ih => omega

theorem hasChild_iff {level : Nat} :
    hasChild depth child nodes level node = true ↔
      ∃ other ∈ nodes, depth other = level ∧ child node other = true := by
  simp [hasChild]

theorem reaches_filter_iff {level : Nat} :
    Reaches depth child (nodes.filter (fun node =>
        depth node != level || hasChild depth child nodes (level + 1) node)) level node ↔
      Reaches depth child nodes (level + 1) node ∧ depth node ≤ level := by
  constructor
  · intro reaches
    refine ⟨?_, reaches.depth_le⟩
    induction reaches with
    | here member atBottom =>
        obtain ⟨present, kept⟩ := List.mem_filter.mp member
        rw [atBottom, bne_self_eq_false, Bool.false_or, hasChild_iff] at kept
        obtain ⟨other, inside, below, parent⟩ := kept
        exact .down present (.here inside below) (by omega) parent
    | down member _ next parent ih =>
        exact .down (List.mem_filter.mp member).1 ih next parent
  · rintro ⟨reaches, high⟩
    induction reaches with
    | here _ atBottom => omega
    | @down node other member below next parent ih =>
        by_cases lowest : depth node = level
        · refine .here (List.mem_filter.mpr ⟨member, ?_⟩) lowest
          rw [Bool.or_eq_true, hasChild_iff]
          exact .inr ⟨other, below.mem, by omega, parent⟩
        · have kept : (depth node != level) = true := bne_iff_ne.mpr lowest
          exact .down (List.mem_filter.mpr ⟨member, by rw [kept, Bool.true_or]⟩)
            (ih (by omega)) next parent

/-- What the pruning keeps: the top level, everything from the bottom level on, and
the nodes from which the bottom level is reached. -/
theorem mem_pruneAbove_iff :
    node ∈ pruneAbove depth child bottom nodes ↔
      node ∈ nodes ∧
        (depth node = 0 ∨ bottom ≤ depth node ∨ Reaches depth child nodes bottom node) := by
  induction bottom generalizing nodes with
  | zero => simp [pruneAbove]
  | succ level ih =>
      rw [pruneAbove]
      by_cases top : level = 0
      · rw [if_pos top, iff_self_and]
        intro _
        omega
      · rw [if_neg top, ih, reaches_filter_iff, List.mem_filter]
        constructor
        · rintro ⟨⟨member, kept⟩, place⟩
          refine ⟨member, ?_⟩
          rcases place with root | low | ⟨reaches, _⟩
          · exact .inl root
          · by_cases lowest : depth node = level
            · rw [lowest, bne_self_eq_false, Bool.false_or, hasChild_iff] at kept
              obtain ⟨other, inside, below, parent⟩ := kept
              exact .inr (.inr (.down member (.here inside below) (by omega) parent))
            · exact .inr (.inl (by omega))
          · exact .inr (.inr reaches)
        · rintro ⟨member, place⟩
          have kept (parented : depth node = level →
              hasChild depth child nodes (level + 1) node = true) :
              (depth node != level || hasChild depth child nodes (level + 1) node) = true := by
            by_cases lowest : depth node = level
            · rw [parented lowest, Bool.or_true]
            · rw [bne_iff_ne.mpr lowest, Bool.true_or]
          rcases place with root | low | reaches
          · exact ⟨⟨member, kept (by omega)⟩, .inl root⟩
          · exact ⟨⟨member, kept (by omega)⟩, .inr (.inl (by omega))⟩
          · have bound := reaches.depth_le
            refine ⟨⟨member, kept ?_⟩, ?_⟩
            · intro lowest
              cases reaches with
              | here _ atBottom => omega
              | @down _ other _ below next parent =>
                  exact hasChild_iff.mpr ⟨other, below.mem, by omega, parent⟩
            · by_cases lowest : level + 1 ≤ depth node
              · exact .inr (.inl (by omega))
              · exact .inr (.inr ⟨reaches, by omega⟩)

/-- After the pruning every node between the levels has a child that was kept. -/
theorem pruneAbove_child (member : node ∈ pruneAbove depth child bottom nodes)
    (inner : 0 < depth node) (above : depth node < bottom) :
    ∃ other ∈ pruneAbove depth child bottom nodes,
      depth other = depth node + 1 ∧ child node other = true := by
  obtain ⟨_, place⟩ := mem_pruneAbove_iff.mp member
  have reaches : Reaches depth child nodes bottom node := by
    rcases place with root | low | reaches
    · omega
    · omega
    · exact reaches
  cases reaches with
  | here _ atBottom => omega
  | @down _ other _ below next parent =>
      exact ⟨other, mem_pruneAbove_iff.mpr ⟨below.mem, .inr (.inr below)⟩, next, parent⟩

/-- A kept node keeps every parent of it that is in the list. -/
theorem pruneAbove_parent {other : α} (member : node ∈ pruneAbove depth child bottom nodes)
    (bounded : depth node ≤ bottom) (present : other ∈ nodes)
    (next : depth node = depth other + 1) (parent : child other node = true) :
    other ∈ pruneAbove depth child bottom nodes := by
  obtain ⟨inside, place⟩ := mem_pruneAbove_iff.mp member
  rw [mem_pruneAbove_iff]
  refine ⟨present, .inr (.inr (.down present ?_ next parent))⟩
  rcases place with root | low | reaches
  · omega
  · exact .here inside (by omega)
  · exact reaches

/-- Where the nodes between the levels have children, every node under the top level
reaches the bottom. -/
theorem reaches_of_children
    (children : ∀ node ∈ nodes, 0 < depth node → depth node < bottom →
      ∃ other ∈ nodes, depth other = depth node + 1 ∧ child node other = true)
    (member : node ∈ nodes) (inner : 0 < depth node) (above : depth node ≤ bottom) :
    Reaches depth child nodes bottom node := by
  obtain ⟨distance, gap⟩ : ∃ distance, depth node + distance = bottom :=
    ⟨bottom - depth node, by omega⟩
  induction distance generalizing node with
  | zero => exact .here member gap
  | succ distance ih =>
      obtain ⟨other, inside, next, parent⟩ := children node member inner (by omega)
      have below := ih inside (by omega) (by omega) (by omega)
      exact .down member below next parent

theorem mem_pruneAbove_of_children
    (children : ∀ node ∈ nodes, 0 < depth node → depth node < bottom →
      ∃ other ∈ nodes, depth other = depth node + 1 ∧ child node other = true) :
    node ∈ pruneAbove depth child bottom nodes ↔ node ∈ nodes := by
  rw [mem_pruneAbove_iff, and_iff_left_iff_imp]
  intro member
  by_cases top : depth node = 0
  · exact .inl top
  · by_cases low : bottom ≤ depth node
    · exact .inr (.inl low)
    · exact .inr (.inr (reaches_of_children children member (by omega) (by omega)))

end Up

section Labels

variable {β : Type} {child : α → α → Bool} {label : α → β}

/-- The labels that lead down to a bottom level, the levels counted upwards from it. -/
def Leads (bottom : β → Prop) (held : Nat → β → Prop) (expected : Nat → β → β → Prop) :
    Nat → β → Prop
  | 0, name => bottom name
  | index + 1, name =>
      held index name ∧ ∃ below, Leads bottom held expected index below ∧ expected index name below

variable {bottom larger : β → Prop} {held wider : Nat → β → Prop} {expected : Nat → β → β → Prop}

theorem Leads.mono {index : Nat} {name : β} (included : ∀ name, bottom name → larger name)
    (grown : ∀ index name, held index name → wider index name)
    (leads : Leads bottom held expected index name) : Leads larger wider expected index name := by
  induction index generalizing name with
  | zero => exact included name leads
  | succ index ih =>
      obtain ⟨present, below, lower, follows⟩ := leads
      exact ⟨grown index name present, below, ih lower, follows⟩

variable {depth : α → Nat} {nodes : List α} {size : Nat}

/-- The nodes of a list carry a level structure: those above the bottom level hold their
level's names and have as children what these are expected as. -/
structure Labelled (depth : α → Nat) (child : α → α → Bool) (label : α → β)
    (bottom : β → Prop) (held : Nat → β → Prop) (expected : Nat → β → β → Prop)
    (size : Nat) (nodes : List α) : Prop where
  lowest : ∀ name, (∃ node ∈ nodes, depth node = size + 1 ∧ label node = name) ↔ bottom name
  holds : ∀ node ∈ nodes, ∀ index, index < size → depth node = size - index →
    held index (label node)
  parent : ∀ node ∈ nodes, ∀ index, index < size → depth node = size - index →
    ∀ other, child node other = true ↔ expected index (label node) (label other)
  present : ∀ index, index < size → ∀ name, Leads bottom held expected (index + 1) name →
    ∃ node ∈ nodes, depth node = size - index ∧ label node = name

theorem leads_of_reaches {node : α}
    (labelled : Labelled depth child label bottom held expected size nodes)
    (reaches : Reaches depth child nodes (size + 1) node) (inner : 0 < depth node) :
    Leads bottom held expected (size + 1 - depth node) (label node) := by
  induction reaches with
  | @here node member atBottom =>
      rw [atBottom, Nat.sub_self]
      exact (labelled.lowest _).mp ⟨node, member, atBottom, rfl⟩
  | @down node other member below next parent ih =>
      have limit := below.depth_le
      have place : size + 1 - depth node = (size - depth node) + 1 := by omega
      have lower := ih (by omega)
      rw [next, Nat.add_sub_add_right] at lower
      rw [place]
      exact ⟨labelled.holds node member _ (by omega) (by omega), label other, lower,
        (labelled.parent node member _ (by omega) (by omega) other).mp parent⟩

theorem reaches_of_leads {index : Nat} {name : β}
    (labelled : Labelled depth child label bottom held expected size nodes)
    (inside : index ≤ size) (leads : Leads bottom held expected index name) :
    ∃ node, depth node = size + 1 - index ∧ label node = name ∧
      Reaches depth child nodes (size + 1) node := by
  induction index generalizing name with
  | zero =>
      obtain ⟨node, member, place, same⟩ := (labelled.lowest name).mpr leads
      exact ⟨node, place, same, .here member place⟩
  | succ index ih =>
      obtain ⟨node, member, place, same⟩ := labelled.present index inside name leads
      obtain ⟨_, below, lower, follows⟩ := leads
      obtain ⟨other, level, otherSame, reaches⟩ := ih (by omega) lower
      refine ⟨node, by omega, same, .down member reaches (by omega) ?_⟩
      rw [labelled.parent node member index inside place, same, otherSame]
      exact follows

/-- The pruning leaves on every level the names that lead down to the lowest one. -/
theorem pruneAbove_labels {index : Nat} {name : β}
    (labelled : Labelled depth child label bottom held expected size nodes)
    (inside : index ≤ size) :
    (∃ node ∈ pruneAbove depth child (size + 1) nodes,
        depth node = size + 1 - index ∧ label node = name) ↔
      Leads bottom held expected index name := by
  constructor
  · rintro ⟨node, member, place, rfl⟩
    obtain ⟨member, kept⟩ := mem_pruneAbove_iff.mp member
    have position : index = size + 1 - depth node := by omega
    rcases kept with top | low | reaches
    · omega
    · have bottomIndex : index = 0 := by omega
      subst bottomIndex
      exact (labelled.lowest _).mp ⟨node, member, place, rfl⟩
    · rw [position]
      exact leads_of_reaches labelled reaches (by omega)
  · intro leads
    obtain ⟨node, place, same, reaches⟩ := reaches_of_leads labelled inside leads
    exact ⟨node, mem_pruneAbove_iff.mpr ⟨reaches.mem, .inr (.inr reaches)⟩, place, same⟩

/-- Every node under the topmost level has a parent exactly when every name that leads
down is what a name of the level above is expected as. -/
theorem parents_iff (label : α → β) (held : Nat → β → Prop) (expected : Nat → β → β → Prop)
    (level : ∀ index, index ≤ size → ∀ name,
      (∃ node ∈ nodes, depth node = size + 1 - index ∧ label node = name) ↔
        Leads bottom held expected index name)
    (parent : ∀ node ∈ nodes, ∀ index, index < size → depth node = size - index →
      ∀ other, child node other = true ↔ expected index (label node) (label other)) :
    (∀ node ∈ nodes, 1 < depth node → depth node ≤ size + 1 →
        ∃ other ∈ nodes, depth other + 1 = depth node ∧ child other node = true) ↔
      ∀ index, index < size → ∀ name, Leads bottom held expected index name →
        ∃ above, held index above ∧ expected index above name := by
  constructor
  · intro parented index inside name leads
    obtain ⟨node, member, place, rfl⟩ := (level index (by omega) name).mpr leads
    obtain ⟨other, otherMember, next, expects⟩ := parented node member (by omega) (by omega)
    have above := (level (index + 1) inside (label other)).mp
      ⟨other, otherMember, by omega, rfl⟩
    exact ⟨label other, above.1,
      (parent other otherMember index inside (by omega) node).mp expects⟩
  · intro hangs node member deep bounded
    obtain ⟨index, position⟩ : ∃ index, depth node = size + 1 - index ∧ index < size :=
      ⟨size + 1 - depth node, by omega, by omega⟩
    have leads := (level index (by omega) (label node)).mp ⟨node, member, position.1, rfl⟩
    obtain ⟨above, present, follows⟩ := hangs index position.2 (label node) leads
    obtain ⟨other, otherMember, place, rfl⟩ := (level (index + 1) position.2 above).mpr
      ⟨present, label node, leads, follows⟩
    refine ⟨other, otherMember, by omega, ?_⟩
    exact (parent other otherMember index position.2 (by omega) node).mpr follows

end Labels

section Down

variable (parent : α → α → Bool)

def hasParent (nodes : List α) (level : Nat) (node : α) : Bool :=
  nodes.any (fun other => depth other + 1 == level && parent other node)

/-- Remove, level by level from `level` down, the nodes without a parent one level up. -/
def cascadeBelow : (level count : Nat) → List α → List α
  | _, 0, nodes => nodes
  | level, count + 1, nodes =>
      cascadeBelow (level + 1) count (nodes.filter (fun node =>
        depth node != level || hasParent depth parent nodes level node))

/-- A chain of parents leads from the node up to the top level. -/
inductive Rooted (nodes : List α) (top : Nat) : α → Prop
  | here {node : α} (member : node ∈ nodes) (atTop : depth node = top) : Rooted nodes top node
  | up {node other : α} (member : node ∈ nodes) (above : Rooted nodes top other)
      (next : depth node = depth other + 1) (parented : parent other node = true) :
      Rooted nodes top node

variable {depth parent} {nodes : List α} {top : Nat} {node : α}

theorem Rooted.mem (rooted : Rooted depth parent nodes top node) : node ∈ nodes := by
  cases rooted with
  | here member _ => exact member
  | up member _ _ _ => exact member

theorem Rooted.le_depth (rooted : Rooted depth parent nodes top node) : top ≤ depth node := by
  induction rooted with
  | here _ atTop => omega
  | up _ _ next _ ih => omega

theorem Rooted.mono {larger : List α} (included : ∀ node ∈ nodes, node ∈ larger)
    (rooted : Rooted depth parent nodes top node) : Rooted depth parent larger top node := by
  induction rooted with
  | here member atTop => exact .here (included _ member) atTop
  | up member _ next parented ih => exact .up (included _ member) ih next parented

theorem hasParent_iff {level : Nat} :
    hasParent depth parent nodes level node = true ↔
      ∃ other ∈ nodes, depth other + 1 = level ∧ parent other node = true := by
  simp [hasParent]

theorem rooted_filter_iff :
    Rooted depth parent (nodes.filter (fun node =>
        depth node != top + 1 || hasParent depth parent nodes (top + 1) node)) (top + 1) node ↔
      Rooted depth parent nodes top node ∧ top + 1 ≤ depth node := by
  constructor
  · intro rooted
    refine ⟨?_, rooted.le_depth⟩
    induction rooted with
    | here member atTop =>
        obtain ⟨present, kept⟩ := List.mem_filter.mp member
        rw [atTop, bne_self_eq_false, Bool.false_or, hasParent_iff] at kept
        obtain ⟨other, inside, above, parented⟩ := kept
        exact .up present (.here inside (by omega)) (by omega) parented
    | up member _ next parented ih =>
        exact .up (List.mem_filter.mp member).1 ih next parented
  · rintro ⟨rooted, low⟩
    induction rooted with
    | here _ atTop => omega
    | @up node other member above next parented ih =>
        by_cases highest : depth node = top + 1
        · refine .here (List.mem_filter.mpr ⟨member, ?_⟩) highest
          rw [Bool.or_eq_true, hasParent_iff]
          exact .inr ⟨other, above.mem, by omega, parented⟩
        · have kept : (depth node != top + 1) = true := bne_iff_ne.mpr highest
          exact .up (List.mem_filter.mpr ⟨member, by rw [kept, Bool.true_or]⟩)
            (ih (by omega)) next parented

/-- What the cascade keeps: everything down to the top level, everything under its
last level, and the nodes with a chain of parents up to the top level. -/
theorem mem_cascadeBelow_iff {count : Nat} :
    node ∈ cascadeBelow depth parent (top + 1) count nodes ↔
      node ∈ nodes ∧
        (depth node ≤ top ∨ top + count < depth node ∨ Rooted depth parent nodes top node) := by
  induction count generalizing nodes top with
  | zero =>
      rw [cascadeBelow, iff_self_and]
      intro _
      omega
  | succ count ih =>
      rw [cascadeBelow, ih, rooted_filter_iff, List.mem_filter]
      constructor
      · rintro ⟨⟨member, kept⟩, place⟩
        refine ⟨member, ?_⟩
        rcases place with high | low | ⟨rooted, _⟩
        · by_cases highest : depth node = top + 1
          · rw [highest, bne_self_eq_false, Bool.false_or, hasParent_iff] at kept
            obtain ⟨other, inside, above, parented⟩ := kept
            exact .inr (.inr (.up member (.here inside (by omega)) (by omega) parented))
          · exact .inl (by omega)
        · exact .inr (.inl (by omega))
        · exact .inr (.inr rooted)
      · rintro ⟨member, place⟩
        have kept (rooted : depth node = top + 1 →
            hasParent depth parent nodes (top + 1) node = true) :
            (depth node != top + 1 || hasParent depth parent nodes (top + 1) node) = true := by
          by_cases highest : depth node = top + 1
          · rw [rooted highest, Bool.or_true]
          · rw [bne_iff_ne.mpr highest, Bool.true_or]
        rcases place with high | low | rooted
        · exact ⟨⟨member, kept (by omega)⟩, .inl (by omega)⟩
        · exact ⟨⟨member, kept (by omega)⟩, .inr (.inl (by omega))⟩
        · have bound := rooted.le_depth
          refine ⟨⟨member, kept ?_⟩, ?_⟩
          · intro highest
            cases rooted with
            | here _ atTop => omega
            | @up _ other _ above next parented =>
                exact hasParent_iff.mpr ⟨other, above.mem, by omega, parented⟩
          · by_cases lower : top + 1 ≤ depth node
            · exact .inr (.inr ⟨rooted, lower⟩)
            · exact .inl (by omega)

end Down

end Pkix.Levels
