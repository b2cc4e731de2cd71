import Mathlib.Data.List.Induction
import Mathlib.Data.Set.Function
import Mathlib.Tactic.Linarith

/-! Hash trees that split at the largest power of two below their size: the root, the path
that proves a leaf, and what a path rebuilds. Paths start with the sibling of the leaf. -/

namespace MerkleTree

/-- The largest power of two below a size of two or more. -/
def splitSize (size : Nat) : Nat := 2 ^ Nat.log2 (size - 1)

section Split

variable {size : Nat}

theorem splitSize_pos : 0 < splitSize size := Nat.two_pow_pos _

theorem splitSize_lt (large : 2 ≤ size) : splitSize size < size := by
  have below := Nat.log2_self_le (n := size - 1) (by omega)
  unfold splitSize
  omega

theorem le_two_mul_splitSize (large : 2 ≤ size) : size ≤ 2 * splitSize size := by
  have above : size - 1 < 2 ^ (Nat.log2 (size - 1) + 1) := Nat.lt_log2_self
  rw [pow_succ] at above
  unfold splitSize
  omega

/-- Pairing up the lowest level halves the split. -/
theorem splitSize_half (large : 3 ≤ size) : splitSize size = 2 * splitSize ((size + 1) / 2) := by
  have half : (size + 1) / 2 - 1 = (size - 1) / 2 := by omega
  unfold splitSize
  rw [half, Nat.log2_def (size - 1), if_pos (by omega), pow_succ, Nat.mul_comm]

theorem splitSize_le_pow {height : Nat} (fits : size ≤ 2 ^ (height + 1)) (large : 2 ≤ size) :
    splitSize size ≤ 2 ^ height := by
  apply Nat.pow_le_pow_right (by decide)
  have low : Nat.log2 (size - 1) < height + 1 := (Nat.log2_lt (by omega)).mpr (by omega)
  omega

end Split

section Definitions

variable {Hash : Type*} (join : Hash → Hash → Hash) (empty : Hash)

def treeRoot (leaves : List Hash) : Hash :=
  if 2 ≤ leaves.length then
    join (treeRoot (leaves.take (splitSize leaves.length)))
      (treeRoot (leaves.drop (splitSize leaves.length)))
  else leaves.head?.getD empty
termination_by leaves.length
decreasing_by
  · have := splitSize_lt ‹2 ≤ leaves.length›
    simp
    omega
  · have := @splitSize_pos leaves.length
    simp
    omega

/-- The siblings of a leaf and of the nodes above it. -/
def auditPath (index : Nat) (leaves : List Hash) : List Hash :=
  if 2 ≤ leaves.length then
    if index < splitSize leaves.length then
      auditPath index (leaves.take (splitSize leaves.length)) ++
        [treeRoot join empty (leaves.drop (splitSize leaves.length))]
    else
      auditPath (index - splitSize leaves.length) (leaves.drop (splitSize leaves.length)) ++
        [treeRoot join empty (leaves.take (splitSize leaves.length))]
  else []
termination_by leaves.length
decreasing_by
  · have := splitSize_lt ‹2 ≤ leaves.length›
    simp
    omega
  · have := @splitSize_pos leaves.length
    simp
    omega

/-- The root that a path gives a leaf, `none` when the path has another length. -/
def rebuild (size index : Nat) (leaf : Hash) (path : List Hash) : Option Hash :=
  if 2 ≤ size then
    match path.getLast? with
    | none => none
    | some sibling =>
        if index < splitSize size then
          (rebuild (splitSize size) index leaf path.dropLast).map (fun node => join node sibling)
        else
          (rebuild (size - splitSize size) (index - splitSize size) leaf path.dropLast).map
            (fun node => join sibling node)
  else if path.isEmpty then some leaf else none
termination_by size
decreasing_by
  · exact splitSize_lt ‹2 ≤ size›
  · have := @splitSize_pos size
    omega

/-- Whether the sibling stands on the left, from the leaf up. -/
def sides (size index : Nat) : List Bool :=
  if 2 ≤ size then
    if index < splitSize size then sides (splitSize size) index ++ [false]
    else sides (size - splitSize size) (index - splitSize size) ++ [true]
  else []
termination_by size
decreasing_by
  · exact splitSize_lt ‹2 ≤ size›
  · have := @splitSize_pos size
    omega

def ordered (onLeft : Bool) (sibling node : Hash) : Hash × Hash :=
  if onLeft then (sibling, node) else (node, sibling)

def climb : (leaf : Hash) → List Bool → List Hash → Hash
  | node, onLeft :: sides, sibling :: path =>
      climb (join (ordered onLeft sibling node).1 (ordered onLeft sibling node).2) sides path
  | node, _, _ => node

/-- The pairs joined on the way. -/
def climbed : (leaf : Hash) → List Bool → List Hash → List (Hash × Hash)
  | node, onLeft :: sides, sibling :: path =>
      ordered onLeft sibling node ::
        climbed (join (ordered onLeft sibling node).1 (ordered onLeft sibling node).2) sides path
  | _, _, _ => []

/-- The pairs joined in the tree. -/
def joined (leaves : List Hash) : List (Hash × Hash) :=
  if 2 ≤ leaves.length then
    (treeRoot join empty (leaves.take (splitSize leaves.length)),
      treeRoot join empty (leaves.drop (splitSize leaves.length))) ::
        (joined (leaves.take (splitSize leaves.length)) ++
          joined (leaves.drop (splitSize leaves.length)))
  else []
termination_by leaves.length
decreasing_by
  · have := splitSize_lt ‹2 ≤ leaves.length›
    simp
    omega
  · have := @splitSize_pos leaves.length
    simp
    omega

end Definitions

section Sides

variable {size index : Nat}

theorem sides_small (small : size < 2) : sides size index = [] := by
  unfold sides
  rw [if_neg (by omega)]

theorem sides_left (large : 2 ≤ size) (left : index < splitSize size) :
    sides size index = sides (splitSize size) index ++ [false] := by
  rw [sides, if_pos large, if_pos left]

theorem sides_right (large : 2 ≤ size) (right : splitSize size ≤ index) :
    sides size index = sides (size - splitSize size) (index - splitSize size) ++ [true] := by
  rw [sides, if_pos large, if_neg (by omega)]

theorem length_sides_le {height : Nat} (fits : size ≤ 2 ^ height) :
    (sides size index).length ≤ height := by
  induction height generalizing size index with
  | zero =>
      rw [sides_small (by omega)]
      exact Nat.le_refl 0
  | succ height ih =>
      rcases Nat.lt_or_ge size 2 with small | large
      · rw [sides_small small]
        exact Nat.zero_le _
      · have low := splitSize_le_pow fits large
        have rest := le_two_mul_splitSize large
        rcases Nat.lt_or_ge index (splitSize size) with left | right
        · rw [sides_left large left, List.length_append]
          exact Nat.succ_le_succ (ih low)
        · rw [sides_right large right, List.length_append]
          exact Nat.succ_le_succ (ih (by omega))

/-- A node with a sibling on its own level. -/
theorem sides_pair (inRange : index < size) (paired : index % 2 = 1 ∨ index + 1 < size) :
    sides size index = decide (index % 2 = 1) :: sides ((size + 1) / 2) (index / 2) := by
  induction size using Nat.strongRecOn generalizing index with
  | _ size ih =>
      have large : 2 ≤ size := by omega
      rcases Nat.eq_or_lt_of_le large with two | three
      · subst two
        rw [sides_small (show (2 + 1) / 2 < 2 by decide)]
        rcases (by omega : index = 0 ∨ index = 1) with zero | one
        · subst zero
          rw [sides_left (by decide) (by decide), sides_small (by decide)]
          rfl
        · subst one
          rw [sides_right (by decide) (by decide), sides_small (by decide)]
          rfl
      · have half := splitSize_half three
        have less := splitSize_lt large
        have positive := @splitSize_pos ((size + 1) / 2)
        rcases Nat.lt_or_ge index (splitSize size) with left | right
        · have lowSize : (splitSize size + 1) / 2 = splitSize ((size + 1) / 2) := by omega
          rw [sides_left large left, @sides_left ((size + 1) / 2) _ (by omega) (by omega),
            ih (splitSize size) less left (by omega), lowSize]
          rfl
        · have restSize : (size - splitSize size + 1) / 2 =
              (size + 1) / 2 - splitSize ((size + 1) / 2) := by omega
          have restIndex : (index - splitSize size) / 2 =
              index / 2 - splitSize ((size + 1) / 2) := by omega
          have parity : (index - splitSize size) % 2 = index % 2 := by omega
          rw [sides_right large right, @sides_right ((size + 1) / 2) _ (by omega) (by omega),
            ih (size - splitSize size) (by omega) (by omega) (by omega), restSize, restIndex,
            parity]
          rfl

/-- The last node of a level without a sibling there. -/
theorem sides_single (final : index + 1 = size) (even : index % 2 = 0) :
    sides size index = sides ((size + 1) / 2) (index / 2) := by
  induction size using Nat.strongRecOn generalizing index with
  | _ size ih =>
      rcases Nat.lt_or_ge size 3 with small | three
      · have zero : index = 0 := by omega
        subst zero
        rw [← final]
      · have half := splitSize_half three
        have less : splitSize size < size := splitSize_lt (by omega)
        have positive := @splitSize_pos ((size + 1) / 2)
        have restSize : (size - splitSize size + 1) / 2 =
            (size + 1) / 2 - splitSize ((size + 1) / 2) := by omega
        have restIndex : (index - splitSize size) / 2 =
            index / 2 - splitSize ((size + 1) / 2) := by omega
        rw [sides_right (by omega) (by omega), @sides_right ((size + 1) / 2) _ (by omega) (by omega),
          ih (size - splitSize size) (by omega) (by omega) (by omega), restSize, restIndex]

end Sides

section Climbing

variable {Hash : Type*} {join : Hash → Hash → Hash}

theorem ordered_inj {onLeft : Bool} {sibling node sibling' node' : Hash}
    (same : ordered onLeft sibling node = ordered onLeft sibling' node') :
    sibling = sibling' ∧ node = node' := by
  cases onLeft with
  | false => exact ⟨congrArg Prod.snd same, congrArg Prod.fst same⟩
  | true => exact ⟨congrArg Prod.fst same, congrArg Prod.snd same⟩

theorem climb_nil {leaf : Hash} {sides : List Bool} : climb join leaf sides [] = leaf := by
  cases sides <;> rfl

theorem climb_concat {leaf sibling : Hash} {sides : List Bool} {path : List Hash} {onLeft : Bool}
    (sameLength : path.length = sides.length) :
    climb join leaf (sides ++ [onLeft]) (path ++ [sibling]) =
      join (ordered onLeft sibling (climb join leaf sides path)).1
        (ordered onLeft sibling (climb join leaf sides path)).2 := by
  induction sides generalizing leaf path with
  | nil =>
      cases path with
      | nil => rfl
      | cons => cases sameLength
  | cons first sides ih =>
      cases path with
      | nil => cases sameLength
      | cons second path => exact ih (Nat.succ.inj sameLength)

/-- Two climbs to one root join the same pairs, when no two pairs joined collide. -/
theorem climb_inj {leaf leaf' : Hash} {sides : List Bool} {path path' : List Hash}
    (sameLength : path.length = sides.length) (sameLength' : path'.length = sides.length)
    (injective : Set.InjOn (fun pair : Hash × Hash => join pair.1 pair.2)
      { pair | pair ∈ climbed join leaf sides path ∨ pair ∈ climbed join leaf' sides path' })
    (same : climb join leaf sides path = climb join leaf' sides path') :
    leaf = leaf' ∧ path = path' := by
  induction sides generalizing leaf leaf' path path' with
  | nil =>
      cases path with
      | cons => cases sameLength
      | nil =>
          cases path' with
          | cons => cases sameLength'
          | nil => exact ⟨same, rfl⟩
  | cons onLeft sides ih =>
      cases path with
      | nil => cases sameLength
      | cons sibling path =>
          cases path' with
          | nil => cases sameLength'
          | cons sibling' path' =>
              have later := injective.mono (fun pair (member : _ ∨ _) =>
                member.imp (List.mem_cons_of_mem _) (List.mem_cons_of_mem _))
              rcases ih (Nat.succ.inj sameLength) (Nat.succ.inj sameLength') later same with
                ⟨joined, rest⟩
              have first : ordered onLeft sibling leaf = ordered onLeft sibling' leaf' :=
                injective (.inl List.mem_cons_self) (.inr List.mem_cons_self) joined
              rcases ordered_inj first with ⟨sameSibling, sameLeaf⟩
              exact ⟨sameLeaf, by rw [sameSibling, rest]⟩

end Climbing

section Rebuilding

variable {Hash : Type*} {join : Hash → Hash → Hash} {empty : Hash} {size index : Nat}
variable {leaf sibling node : Hash} {path leaves : List Hash}

theorem rebuild_small (small : size < 2) :
    rebuild join size index leaf path = if path.isEmpty then some leaf else none := by
  rw [rebuild, if_neg (by omega)]

theorem rebuild_nil (large : 2 ≤ size) : rebuild join size index leaf [] = none := by
  rw [rebuild, if_pos large]
  rfl

theorem rebuild_left (large : 2 ≤ size) (left : index < splitSize size) :
    rebuild join size index leaf (path ++ [sibling]) =
      (rebuild join (splitSize size) index leaf path).map (fun node => join node sibling) := by
  rw [rebuild, if_pos large, List.getLast?_concat, List.dropLast_concat]
  exact if_pos left

theorem rebuild_right (large : 2 ≤ size) (right : splitSize size ≤ index) :
    rebuild join size index leaf (path ++ [sibling]) =
      (rebuild join (size - splitSize size) (index - splitSize size) leaf path).map
        (fun node => join sibling node) := by
  rw [rebuild, if_pos large, List.getLast?_concat, List.dropLast_concat]
  exact if_neg (by omega)

theorem climb_concat_iff (onLeft : Bool) {lower : Option Hash} {sides : List Bool}
    (below : ∀ node, lower = some node ↔
      path.length = sides.length ∧ climb join leaf sides path = node) :
    lower.map (fun node => join (ordered onLeft sibling node).1 (ordered onLeft sibling node).2) =
        some node ↔
      (path ++ [sibling]).length = (sides ++ [onLeft]).length ∧
        climb join leaf (sides ++ [onLeft]) (path ++ [sibling]) = node := by
  rw [Option.map_eq_some_iff, List.length_append, List.length_append]
  constructor
  · intro ⟨reached, isLower, joins⟩
    rcases (below reached).mp isLower with ⟨sameLength, climbs⟩
    refine ⟨congrArg (· + 1) sameLength, ?_⟩
    rw [climb_concat sameLength, climbs]
    exact joins
  · intro ⟨longer, climbs⟩
    have sameLength : path.length = sides.length := Nat.add_right_cancel longer
    rw [climb_concat sameLength] at climbs
    exact ⟨_, (below _).mpr ⟨sameLength, rfl⟩, climbs⟩

/-- A path rebuilds a root exactly when it has the length of the sides and climbs to it. -/
theorem rebuild_eq_some_iff :
    rebuild join size index leaf path = some node ↔
      path.length = (sides size index).length ∧ climb join leaf (sides size index) path = node := by
  induction size using Nat.strongRecOn generalizing index path node with
  | _ size ih =>
      rcases Nat.lt_or_ge size 2 with small | large
      · rw [rebuild_small small, sides_small small]
        cases path <;> simp [climb]
      · have less := splitSize_lt large
        have positive := @splitSize_pos size
        rcases List.eq_nil_or_concat path with none_ | ⟨init, sibling, last⟩
        · subst none_
          rw [rebuild_nil large]
          rcases Nat.lt_or_ge index (splitSize size) with left | right
          · simp [sides_left large left]
          · simp [sides_right large right]
        · rw [List.concat_eq_append] at last
          subst last
          rcases Nat.lt_or_ge index (splitSize size) with left | right
          · rw [rebuild_left large left, sides_left large left]
            exact climb_concat_iff false (fun _ => ih _ less)
          · rw [rebuild_right large right, sides_right large right]
            exact climb_concat_iff true (fun _ => ih _ (by omega))

theorem treeRoot_split (large : 2 ≤ leaves.length) :
    treeRoot join empty leaves =
      join (treeRoot join empty (leaves.take (splitSize leaves.length)))
        (treeRoot join empty (leaves.drop (splitSize leaves.length))) := by
  rw [treeRoot, if_pos large]

/-- The path of a leaf rebuilds the root. -/
theorem rebuild_auditPath (located : leaves[index]? = some leaf) :
    rebuild join leaves.length index leaf (auditPath join empty index leaves) =
      some (treeRoot join empty leaves) := by
  induction size : leaves.length using Nat.strongRecOn generalizing index leaves with
  | _ size' ih =>
      subst size
      have inRange := (List.getElem?_eq_some_iff.mp located).1
      rcases Nat.lt_or_ge leaves.length 2 with small | large
      · have zero : index = 0 := by omega
        subst zero
        have noPath : auditPath join empty 0 leaves = [] := by
          rw [auditPath, if_neg (by omega)]
        have alone : treeRoot join empty leaves = leaf := by
          rw [treeRoot, if_neg (by omega), List.head?_eq_getElem?, located]
          rfl
        rw [rebuild_small small, noPath, alone]
        rfl
      · have less := splitSize_lt large
        have positive := @splitSize_pos leaves.length
        rw [treeRoot_split large, auditPath, if_pos large]
        have lowLength : (leaves.take (splitSize leaves.length)).length =
            splitSize leaves.length := by
          simp
          omega
        rcases Nat.lt_or_ge index (splitSize leaves.length) with left | right
        · have lower := ih _ (by omega) (List.getElem?_take_of_lt left ▸ located) rfl
          rw [lowLength] at lower
          rw [if_pos left, rebuild_left large left, lower]
          rfl
        · have above : (leaves.drop (splitSize leaves.length))[index - splitSize leaves.length]? =
              some leaf := by
            rw [List.getElem?_drop, Nat.add_sub_cancel' right]
            exact located
          have upper := ih _ (by rw [List.length_drop]; omega) above rfl
          rw [List.length_drop] at upper
          rw [if_neg (by omega), rebuild_right large right, upper]
          rfl

end Rebuilding

section Landing

variable {Hash : Type*} {join : Hash → Hash → Hash} {empty leaf : Hash} {leaves path : List Hash}

theorem climbed_concat {sides : List Bool} {sibling : Hash} {onLeft : Bool}
    (sameLength : path.length = sides.length) :
    climbed join leaf (sides ++ [onLeft]) (path ++ [sibling]) =
      climbed join leaf sides path ++ [ordered onLeft sibling (climb join leaf sides path)] := by
  induction sides generalizing leaf path with
  | nil =>
      cases path with
      | nil => rfl
      | cons => cases sameLength
  | cons first sides ih =>
      cases path with
      | nil => cases sameLength
      | cons second path =>
          show _ :: climbed join _ (sides ++ [onLeft]) (path ++ [sibling]) = _
          rw [ih (Nat.succ.inj sameLength)]
          rfl

theorem ordered_mem (onLeft : Bool) (sibling node : Hash) :
    (ordered onLeft sibling node).1 = node ∨ (ordered onLeft sibling node).2 = node := by
  cases onLeft with
  | false => exact .inl rfl
  | true => exact .inr rfl

/-- A node of the tree: a leaf, a pair joined in it, or the root of the empty tree. -/
def IsNode (join : Hash → Hash → Hash) (empty : Hash) (leaves : List Hash) (node : Hash) : Prop :=
  node ∈ leaves ∨ (∃ pair ∈ joined join empty leaves, join pair.1 pair.2 = node) ∨ node = empty

theorem isNode_root : IsNode join empty leaves (treeRoot join empty leaves) := by
  by_cases large : 2 ≤ leaves.length
  · rw [treeRoot_split large]
    refine .inr (.inl ⟨(_, _), ?_, rfl⟩)
    rw [joined, if_pos large]
    exact List.mem_cons_self
  · rw [treeRoot, if_neg large]
    cases leaves with
    | nil => exact .inr (.inr rfl)
    | cons head tail => exact .inl List.mem_cons_self

theorem IsNode.of_part {part : List Hash} {node : Hash} (inside : ∀ leaf ∈ part, leaf ∈ leaves)
    (pairs : ∀ pair ∈ joined join empty part, pair ∈ joined join empty leaves)
    (isNode : IsNode join empty part node) : IsNode join empty leaves node := by
  rcases isNode with leaf | ⟨pair, listed, joins⟩ | none_
  · exact .inl (inside node leaf)
  · exact .inr (.inl ⟨pair, pairs pair listed, joins⟩)
  · exact .inr (.inr none_)

/-- A climb that ends at the root started at a node of the tree, when no two pairs joined on
the way or in the tree collide and no pair joined on the way is taken for a leaf. The sides
need not be those of a leaf. -/
theorem isNode_of_climb {sides : List Bool} (sameLength : path.length = sides.length)
    (injective : Set.InjOn (fun pair : Hash × Hash => join pair.1 pair.2)
      { pair | pair ∈ climbed join leaf sides path ∨ pair ∈ joined join empty leaves })
    (apart : ∀ pair ∈ climbed join leaf sides path,
      join pair.1 pair.2 ∉ leaves ∧ join pair.1 pair.2 ≠ empty)
    (climbs : climb join leaf sides path = treeRoot join empty leaves) :
    IsNode join empty leaves leaf := by
  induction sides using List.reverseRecOn generalizing path leaves with
  | nil =>
      rw [List.length_eq_zero_iff.mp sameLength, climb_nil] at climbs
      rw [climbs]
      exact isNode_root
  | append_singleton sides onLeft ih =>
      rcases List.eq_nil_or_concat path with none_ | ⟨init, sibling, last⟩
      · simp [none_] at sameLength
      · rw [List.concat_eq_append] at last
        subst last
        have shorter : init.length = sides.length := by simpa using sameLength
        have top : ordered onLeft sibling (climb join leaf sides init) ∈
            climbed join leaf (sides ++ [onLeft]) (init ++ [sibling]) := by
          rw [climbed_concat shorter]
          simp
        rw [climb_concat shorter] at climbs
        by_cases large : 2 ≤ leaves.length
        · rw [treeRoot_split large] at climbs
          have parts : joined join empty leaves =
              (treeRoot join empty (leaves.take (splitSize leaves.length)),
                treeRoot join empty (leaves.drop (splitSize leaves.length))) ::
                  (joined join empty (leaves.take (splitSize leaves.length)) ++
                    joined join empty (leaves.drop (splitSize leaves.length))) := by
            rw [joined, if_pos large]
          have same := injective (.inl top) (.inr (by rw [parts]; exact List.mem_cons_self)) climbs
          -- The climb below the top ends at the root of one of the two parts.
          have below (part : List Hash) (inside : ∀ leaf ∈ part, leaf ∈ leaves)
              (pairs : ∀ pair ∈ joined join empty part, pair ∈ joined join empty leaves)
              (ends : climb join leaf sides init = treeRoot join empty part) :
              IsNode join empty leaves leaf := by
            have fewer : ∀ pair ∈ climbed join leaf sides init,
                pair ∈ climbed join leaf (sides ++ [onLeft]) (init ++ [sibling]) := by
              rw [climbed_concat shorter]
              exact fun pair => List.mem_append_left _
            apply IsNode.of_part inside pairs
            apply ih shorter ?_ ?_ ends
            · exact injective.mono (fun pair (member : _ ∨ _) =>
                member.imp (fewer pair) (pairs pair))
            · intro pair listed
              have away := apart pair (fewer pair listed)
              exact ⟨fun leaf => away.1 (inside _ leaf), away.2⟩
          rcases ordered_mem onLeft sibling (climb join leaf sides init) with left | right
          · apply below (leaves.take (splitSize leaves.length)) (fun _ => List.mem_of_mem_take)
            · rw [parts]
              exact fun pair listed => List.mem_cons_of_mem _ (List.mem_append_left _ listed)
            · rw [← left, same]
          · apply below (leaves.drop (splitSize leaves.length)) (fun _ => List.mem_of_mem_drop)
            · rw [parts]
              exact fun pair listed => List.mem_cons_of_mem _ (List.mem_append_right _ listed)
            · rw [← right, same]
        · have away := apart _ top
          rw [climbs, treeRoot, if_neg large] at away
          cases leaves with
          | nil => exact absurd rfl away.2
          | cons head tail => exact absurd List.mem_cons_self away.1

end Landing

end MerkleTree
