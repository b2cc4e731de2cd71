import Mathlib.Data.Char
import Mathlib.Data.List.AList
import Mathlib.Data.List.Destutter
import Mathlib.Data.List.Lex
import Mathlib.Data.List.Perm.Basic
import Mathlib.Data.List.Sort
import Pkix.Lib.Selection
import Pkix.Lib.StdText
import Pkix.Lib.Walk

/-! Parameter overrides of a lint runner: each goes to the lint with the longest id in front of
it, and all of them are taken or none. -/

namespace Pkix.Lint

open StdText (utf8)
open Selection Walk

section Routing

abbrev ParamText := List Char

inductive ParameterError where
  | unknownParameter (id : ParamText)
  | invalidValue (id reason : ParamText)
  deriving DecidableEq

structure ParameterOverride where
  paramId : ParamText
  value : ParamText
  deriving DecidableEq

inductive OverrideError where
  | unknownParameterOverride (paramId : ParamText)
  | invalidParameterOverride (paramId : ParamText) (source : ParameterError)
  deriving DecidableEq

/-- A lint, as far as overrides see it: `setParameter` may change it even where it fails. -/
structure Tunable (σ : Type) where
  id : σ → ParamText
  setParameter : σ → ParamText → ParamText → σ × Except ParameterError Unit

variable {σ : Type} (lint : Tunable σ)

def Tunable.checkUniqueIds (lints : List σ) : Bool :=
  let ids := lints.map lint.id
  ((ids.insertionSort (· ≤ ·)).destutter (· ≠ ·)).length = ids.length

/-- What is behind the id and a dot. -/
def stripLintId (lintId paramId : ParamText) : Option ParamText :=
  (paramId.dropPrefix? lintId).bind fun rest => rest.dropPrefix? ['.']

/-- The lints whose id is in front, with the length of the id and what is behind it. -/
def Tunable.candidates (lints : List σ) (paramId : ParamText) :
    List (Fin lints.length × Nat × ParamText) :=
  (List.finRange lints.length).filterMap fun index =>
    (stripLintId (lint.id lints[index]) paramId).map fun rest =>
      (index, (utf8 (lint.id lints[index])).length, rest)

def Tunable.resolve (lints : List σ) (override : ParameterOverride) :
    Except OverrideError (Fin lints.length × ParamText) :=
  match maxByKey (fun candidate => candidate.2.1) (lint.candidates lints override.paramId) with
  | some (index, _, paramId) => .ok (index, paramId)
  | none => .error (.unknownParameterOverride override.paramId)

/-- The first phase. -/
def Tunable.resolveAll (lints : List σ) : List ParameterOverride →
    Except OverrideError (List (Fin lints.length × ParamText × ParameterOverride))
  | [] => .ok []
  | override :: rest => do
      let (index, paramId) ← lint.resolve lints override
      let resolved ← resolveAll lints rest
      .ok ((index, paramId, override) :: resolved)

abbrev Clones (lints : List σ) := AList fun _ : Fin lints.length => σ

/-- The state of a lint, or of its clone where it has one. -/
def Clones.state {lints : List σ} (clones : Clones lints) (index : Fin lints.length) : σ :=
  (clones.lookup index).getD lints[index]

/-- One turn of the second phase. -/
def Tunable.tune (lints : List σ) (clones : Clones lints) :
    Fin lints.length × ParamText × ParameterOverride → Except OverrideError (Clones lints)
  | (index, paramId, override) =>
      match lint.setParameter (clones.state index) paramId override.value with
      | (clone, .ok ()) => .ok (clones.insert index clone)
      | (_, .error source) => .error (.invalidParameterOverride override.paramId source)

def commit {lints : List σ} (clones : Clones lints) : List σ :=
  clones.entries.foldl (fun lints entry => lints.set entry.1 entry.2) lints

/-- The outcome, and the lints afterwards. -/
def Tunable.applyParameterOverrides (lints : List σ) (overrides : List ParameterOverride) :
    Except OverrideError Unit × List σ :=
  match lint.resolveAll lints overrides with
  | .error failure => (.error failure, lints)
  | .ok resolved =>
      match resolved.foldlM (lint.tune lints) ∅ with
      | .error failure => (.error failure, lints)
      | .ok clones => (.ok (), commit clones)

end Routing

section Runner

variable {σ : Type} {lint : Tunable σ} {lints : List σ}

/-- After sorting, equal ids are neighbours. -/
theorem checkUniqueIds_iff : lint.checkUniqueIds lints = true ↔ (lints.map lint.id).Nodup := by
  have order := List.perm_insertionSort (· ≤ ·) (lints.map lint.id)
  have sorted := List.pairwise_insertionSort (· ≤ ·) (lints.map lint.id)
  have length := order.length_eq
  unfold Tunable.checkUniqueIds
  dsimp only
  rw [decide_eq_true_eq, ← length, ← order.nodup_iff]
  generalize (lints.map lint.id).insertionSort (· ≤ ·) = ids at *
  constructor
  · intro same
    have whole := (List.destutter_sublist (· ≠ ·) ids).eq_of_length same
    have chain := (List.destutter_eq_self_iff (· ≠ ·) ids).mp whole
    have ascending : ids.IsChain (· < ·) := by
      rw [List.isChain_iff_getElem] at chain ⊢
      have atMost := List.isChain_iff_getElem.mp sorted.isChain
      intro place within
      exact lt_of_le_of_ne (atMost place within) (chain place within)
    exact ascending.pairwise.imp fun below => ne_of_lt below
  · intro distinct
    rw [(List.destutter_eq_self_iff (· ≠ ·) ids).mpr distinct.isChain]

/-- A runner is made of lints with different ids. -/
structure TunableRunner (lint : Tunable σ) where
  lints : List σ
  unique : (lints.map lint.id).Nodup

/-- Where two lints share an id the constructor panics. -/
def TunableRunner.new (lints : List σ) : Option (TunableRunner lint) :=
  if checked : lint.checkUniqueIds lints = true then
    some ⟨lints, checkUniqueIds_iff.mp checked⟩
  else none

end Runner

section Ownership

variable {σ : Type} {lint : Tunable σ} {lints : List σ} {paramId param : ParamText}
  {override : ParameterOverride} {index : Fin lints.length}

/-- The composite id is that of the parameter at the lint. -/
def Tunable.Matches (lint : Tunable σ) (paramId : ParamText) (state : σ) (param : ParamText) : Prop :=
  paramId = lint.id state ++ '.' :: param

/-- Of the registered lints whose id is in front, the owner has the longest. -/
def Tunable.Owns (lint : Tunable σ) (lints : List σ) (paramId : ParamText) (owner : σ)
    (param : ParamText) : Prop :=
  lint.Matches paramId owner param ∧ ∀ other ∈ lints, ∀ rest, lint.Matches paramId other rest →
    (lint.id other).length ≤ (lint.id owner).length

theorem stripLintId_iff {lintId : ParamText} :
    stripLintId lintId paramId = some param ↔ paramId = lintId ++ '.' :: param := by
  unfold stripLintId
  rw [Option.bind_eq_some_iff]
  constructor
  · intro stripped
    obtain ⟨rest, front, dot⟩ := stripped
    obtain ⟨lintId', split, same⟩ := List.dropPrefix?_eq_some_iff.mp front
    obtain ⟨dot', split', sameDot⟩ := List.dropPrefix?_eq_some_iff.mp dot
    rw [split, split', beq_iff_eq.mp same, beq_iff_eq.mp sameDot]
    rfl
  · intro split
    refine ⟨'.' :: param, List.dropPrefix?_eq_some_iff.mpr ⟨lintId, split, beq_self_eq_true _⟩, ?_⟩
    exact List.dropPrefix?_eq_some_iff.mpr ⟨['.'], rfl, beq_self_eq_true _⟩

theorem mem_candidates {length : Nat} : (index, length, param) ∈ lint.candidates lints paramId ↔
    lint.Matches paramId lints[index] param ∧ length = (utf8 (lint.id lints[index])).length := by
  unfold Tunable.candidates
  rw [List.mem_filterMap]
  constructor
  · intro listed
    obtain ⟨index', _, found⟩ := listed
    obtain ⟨rest, stripped, same⟩ := Option.map_eq_some_iff.mp found
    cases same
    exact ⟨stripLintId_iff.mp stripped, rfl⟩
  · intro fit
    refine ⟨index, List.mem_finRange index, Option.map_eq_some_iff.mpr ⟨param, ?_, ?_⟩⟩
    · exact stripLintId_iff.mpr fit.1
    · rw [fit.2]

theorem index_of_owns (unique : (lints.map lint.id).Nodup) {index' : Fin lints.length}
    {param' : ParamText} (owns : lint.Owns lints paramId lints[index] param)
    (owns' : lint.Owns lints paramId lints[index'] param') : index = index' ∧ param = param' := by
  have atMost := owns'.2 _ (List.getElem_mem index.isLt) _ owns.1
  have atLeast := owns.2 _ (List.getElem_mem index'.isLt) _ owns'.1
  have split := owns.1.symm.trans owns'.1
  obtain ⟨sameId, sameRest⟩ := List.append_inj split (Nat.le_antisymm atMost atLeast)
  have within : ∀ place : Fin lints.length, place.val < (lints.map lint.id).length := by
    intro place
    rw [List.length_map]
    exact place.isLt
  have ids : (lints.map lint.id).get ⟨index.val, within index⟩ =
      (lints.map lint.id).get ⟨index'.val, within index'⟩ := by
    rw [List.get_eq_getElem, List.get_eq_getElem, List.getElem_map, List.getElem_map]
    exact sameId
  have places := List.nodup_iff_injective_get.mp unique ids
  exact ⟨Fin.ext (Fin.mk.inj places), (List.cons.inj sameRest).2⟩

/-- The candidate with the longest id is the owner. -/
theorem owns_of_best {length : Nat} (found : maxByKey (fun candidate => candidate.2.1)
    (lint.candidates lints paramId) = some (index, length, param)) :
    lint.Owns lints paramId lints[index] param := by
  obtain ⟨member, greatest⟩ := maxByKey_some found
  obtain ⟨fits, octets⟩ := mem_candidates.mp member
  refine ⟨fits, ?_⟩
  intro other present rest otherFits
  obtain ⟨place, within, same⟩ := List.mem_iff_getElem.mp present
  subst same
  have shorter := greatest (⟨place, within⟩, _, rest) (mem_candidates.mpr ⟨otherFits, rfl⟩)
  dsimp only at shorter
  rw [octets] at shorter
  exact StdText.length_le_of_utf8 (otherFits.symm.trans fits) shorter

theorem resolve_ok_iff (unique : (lints.map lint.id).Nodup) :
    lint.resolve lints override = .ok (index, param) ↔
      lint.Owns lints override.paramId lints[index] param := by
  unfold Tunable.resolve
  constructor
  · intro resolved
    split at resolved
    · rename_i found
      cases resolved
      exact owns_of_best found
    · cases resolved
  · intro owns
    split
    · rename_i found
      obtain ⟨same, same'⟩ := index_of_owns unique (owns_of_best found) owns
      rw [same, same']
    · rename_i none
      have empty := maxByKey_eq_none.mp none
      have member := mem_candidates.mpr ⟨owns.1, rfl⟩
      rw [empty] at member
      cases member

/-- Each override with the lint that owns it. -/
def Tunable.ResolvedTo (lint : Tunable σ) (lints : List σ) :
    List ParameterOverride → List (Fin lints.length × ParamText × ParameterOverride) → Prop :=
  List.Forall₂ fun override entry =>
    lint.Owns lints override.paramId lints[entry.1] entry.2.1 ∧ entry.2.2 = override

theorem resolveAll_ok_iff (unique : (lints.map lint.id).Nodup) {overrides : List ParameterOverride}
    {resolved : List (Fin lints.length × ParamText × ParameterOverride)} :
    lint.resolveAll lints overrides = .ok resolved ↔ lint.ResolvedTo lints overrides resolved := by
  induction overrides generalizing resolved with
  | nil =>
      unfold Tunable.resolveAll Tunable.ResolvedTo
      rw [Except.ok.injEq, List.forall₂_nil_left_iff]
      exact eq_comm
  | cons override rest ih =>
      unfold Tunable.resolveAll Tunable.ResolvedTo
      rw [List.forall₂_cons_left_iff]
      constructor
      · intro done
        obtain ⟨⟨index, param⟩, first, done⟩ := bind_ok.mp done
        obtain ⟨others, later, done⟩ := bind_ok.mp done
        cases done
        exact ⟨_, _, ⟨(resolve_ok_iff unique).mp first, rfl⟩, ih.mp later, rfl⟩
      · intro owned
        obtain ⟨⟨index, param, override'⟩, others, ⟨first, same⟩, later, split⟩ := owned
        subst same
        subst split
        exact bind_ok.mpr ⟨_, (resolve_ok_iff unique).mpr first, bind_ok.mpr
          ⟨_, ih.mpr later, rfl⟩⟩

end Ownership

section Tuning

variable {σ : Type} {lint : Tunable σ} {lints : List σ}

/-- The state of a lint after the overrides that it owns, in their order, each of them taken. -/
inductive Tunable.Applied (lint : Tunable σ) (lints : List σ) (owner : σ) :
    σ → List ParameterOverride → σ → Prop
  | nil (state : σ) : Applied lint lints owner state [] state
  | own {state next final : σ} {override : ParameterOverride} {rest : List ParameterOverride}
      {param : ParamText} (owns : lint.Owns lints override.paramId owner param)
      (set : lint.setParameter state param override.value = (next, .ok ()))
      (later : Applied lint lints owner next rest final) :
      Applied lint lints owner state (override :: rest) final
  | skip {state final : σ} {override : ParameterOverride} {rest : List ParameterOverride}
      (foreign : ∀ param, ¬ lint.Owns lints override.paramId owner param)
      (later : Applied lint lints owner state rest final) :
      Applied lint lints owner state (override :: rest) final

theorem owns_param {paramId param param' : ParamText} {owner : σ}
    (owns : lint.Owns lints paramId owner param) (owns' : lint.Owns lints paramId owner param') :
    param = param' :=
  (List.cons.inj (List.append_cancel_left (owns.1.symm.trans owns'.1))).2

theorem Tunable.Applied.unique {owner state final final' : σ} {overrides : List ParameterOverride}
    (applied : lint.Applied lints owner state overrides final)
    (applied' : lint.Applied lints owner state overrides final') : final = final' := by
  induction applied with
  | nil => cases applied'; rfl
  | own owns set _ ih =>
      cases applied' with
      | own owns' set' later' =>
          rw [← owns_param owns owns', set, Prod.mk.injEq] at set'
          rw [← set'.1] at later'
          exact ih later'
      | skip foreign _ => exact absurd owns (foreign _)
  | skip foreign _ ih =>
      cases applied' with
      | own owns' _ _ => exact absurd owns' (foreign _)
      | skip _ later' => exact ih later'

theorem state_insert {clones : Clones lints} {index other : Fin lints.length} {clone : σ} :
    Clones.state (clones.insert index clone) other =
      if other = index then clone else clones.state other := by
  unfold Clones.state
  split
  · rename_i same
    subst same
    rw [AList.lookup_insert]
    rfl
  · rename_i different
    rw [AList.lookup_insert_ne different]

variable {override : ParameterOverride} {entry : Fin lints.length × ParamText × ParameterOverride}
  {clones next final : Clones lints}

/-- One turn: the owner is changed, the others stay. -/
theorem tune_ok (tuned : lint.tune lints clones entry = .ok next) :
    lint.setParameter (clones.state entry.1) entry.2.1 entry.2.2.value =
        (next.state entry.1, .ok ()) ∧
      ∀ other, other ≠ entry.1 → next.state other = clones.state other := by
  obtain ⟨index, param, override⟩ := entry
  unfold Tunable.tune at tuned
  dsimp only at tuned ⊢
  split at tuned
  · rename_i clone set
    cases tuned
    rw [state_insert, if_pos rfl]
    refine ⟨set, ?_⟩
    intro other different
    rw [state_insert, if_neg different]
  · cases tuned

theorem exists_tune {state : σ} (set : lint.setParameter (clones.state entry.1) entry.2.1
    entry.2.2.value = (state, .ok ())) : ∃ next, lint.tune lints clones entry = .ok next := by
  unfold Tunable.tune
  dsimp only
  rw [set]
  exact ⟨_, rfl⟩

variable {overrides : List ParameterOverride}
  {resolved : List (Fin lints.length × ParamText × ParameterOverride)}

/-- The run of the second phase takes every clone through the overrides of its lint. -/
theorem tuneAll_applied (unique : (lints.map lint.id).Nodup)
    (owned : lint.ResolvedTo lints overrides resolved)
    (tuned : resolved.foldlM (lint.tune lints) clones = .ok final) (index : Fin lints.length) :
    lint.Applied lints lints[index] (clones.state index) overrides (final.state index) := by
  induction owned generalizing clones with
  | nil =>
      cases tuned
      exact .nil _
  | @cons override entry overrides resolved first rest ih =>
      rw [List.foldlM_cons] at tuned
      obtain ⟨next, turn, tuned⟩ := bind_ok.mp tuned
      obtain ⟨set, others⟩ := tune_ok turn
      have later := ih tuned
      obtain ⟨owns, sameOverride⟩ := first
      rw [sameOverride] at set
      by_cases mine : index = entry.1
      · subst mine
        exact .own owns set later
      · rw [others index mine] at later
        refine .skip ?_ later
        intro param owns'
        exact mine (index_of_owns unique owns' owns).1

theorem exists_tuneAll (unique : (lints.map lint.id).Nodup)
    (owned : lint.ResolvedTo lints overrides resolved)
    (applied : ∀ index, ∃ state,
      lint.Applied lints lints[index] (clones.state index) overrides state) :
    ∃ final, resolved.foldlM (lint.tune lints) clones = .ok final := by
  induction owned generalizing clones with
  | nil => exact ⟨clones, rfl⟩
  | @cons override entry overrides resolved first rest ih =>
      obtain ⟨owns, sameOverride⟩ := first
      obtain ⟨state, ownerApplied⟩ := applied entry.1
      cases ownerApplied with
      | skip foreign _ => exact absurd owns (foreign _)
      | own owns' set later =>
          rw [← sameOverride, owns_param owns' owns] at set
          obtain ⟨next, turn⟩ := exists_tune set
          obtain ⟨set', others⟩ := tune_ok turn
          have mine := (Prod.mk.inj (set.symm.trans set')).1
          rw [mine] at later
          have remaining : ∀ index, ∃ state,
              lint.Applied lints lints[index] (next.state index) overrides state := by
            intro index
            by_cases same : index = entry.1
            · subst same
              exact ⟨_, later⟩
            · rw [others index same]
              obtain ⟨state, otherApplied⟩ := applied index
              cases otherApplied with
              | own owns'' _ _ => exact absurd (index_of_owns unique owns'' owns).1 same
              | skip _ later' => exact ⟨_, later'⟩
          obtain ⟨final, done⟩ := ih remaining
          exact ⟨final, bind_ok.mpr ⟨next, turn, done⟩⟩

end Tuning

section Commit

variable {σ : Type} {lint : Tunable σ} {lints : List σ}

/-- The keys are different, so each place is written once at most. -/
theorem getElem?_foldl_set {count : Nat} (entries : List (Sigma fun _ : Fin count => σ))
    (distinct : entries.NodupKeys) (index : Fin count) (written : List σ)
    (within : index.val < written.length) :
    (entries.foldl (fun lints entry => lints.set entry.1 entry.2) written)[index.val]? =
      (entries.dlookup index).or written[index.val]? := by
  induction entries generalizing written with
  | nil => rfl
  | cons entry rest ih =>
      rw [List.nodupKeys_cons] at distinct
      have longer : index.val < (written.set entry.1 entry.2).length := by
        rw [List.length_set]
        exact within
      rw [List.foldl_cons, ih distinct.2 (written.set entry.1 entry.2) longer]
      by_cases same : index = entry.1
      · subst same
        rw [List.dlookup_eq_none.mpr distinct.1, Option.none_or, List.dlookup_cons_eq,
          List.getElem?_set_self within]
        rfl
      · have apart : entry.1.val ≠ index.val := fun equal => same (Fin.ext equal.symm)
        rw [List.dlookup_cons_ne _ _ same, List.getElem?_set_ne apart]

theorem length_commit (clones : Clones lints) : (commit clones).length = lints.length := by
  unfold commit
  generalize clones.entries = entries
  suffices kept : ∀ written : List σ,
      (entries.foldl (fun lints entry => lints.set entry.1 entry.2) written).length =
        written.length from kept lints
  induction entries with
  | nil => exact fun written => rfl
  | cons entry rest ih =>
      intro written
      rw [List.foldl_cons, ih, List.length_set]

theorem getElem?_commit (clones : Clones lints) (index : Fin lints.length) :
    (commit clones)[index.val]? = some (clones.state index) := by
  have written := getElem?_foldl_set clones.entries clones.nodupKeys index lints index.isLt
  rw [commit, written, List.getElem?_eq_getElem index.isLt]
  change (clones.lookup index).or (some lints[index]) = some ((clones.lookup index).getD lints[index])
  cases clones.lookup index with
  | none => rfl
  | some clone => rfl

end Commit

section Exactness

variable {σ : Type} {lint : Tunable σ} {overrides : List ParameterOverride}

theorem Tunable.Owns.of_mem_iff {lints lints' : List σ} (same : ∀ state, state ∈ lints' ↔ state ∈ lints)
    {paramId param : ParamText} {owner : σ} (owns : lint.Owns lints paramId owner param) :
    lint.Owns lints' paramId owner param :=
  ⟨owns.1, fun other present => owns.2 other ((same other).mp present)⟩

theorem Tunable.Applied.of_mem_iff {lints lints' : List σ}
    (same : ∀ state, state ∈ lints' ↔ state ∈ lints) {owner state final : σ}
    (applied : lint.Applied lints owner state overrides final) :
    lint.Applied lints' owner state overrides final := by
  induction applied with
  | nil => exact .nil _
  | own owns set _ ih => exact .own (owns.of_mem_iff same) set ih
  | skip foreign _ ih =>
      refine .skip ?_ ih
      intro param owns
      exact foreign param (owns.of_mem_iff fun state => (same state).symm)

/-- An error leaves the lints as they are, and without one the clones are put in their places. -/
theorem applyParameterOverrides_cases (lints : List σ) (overrides : List ParameterOverride) :
    (∃ failure, lint.applyParameterOverrides lints overrides = (.error failure, lints)) ∨
      ∃ resolved clones, lint.resolveAll lints overrides = .ok resolved ∧
        resolved.foldlM (lint.tune lints) ∅ = .ok clones ∧
        lint.applyParameterOverrides lints overrides = (.ok (), commit clones) := by
  unfold Tunable.applyParameterOverrides
  cases phase1 : lint.resolveAll lints overrides with
  | error failure => exact .inl ⟨failure, rfl⟩
  | ok resolved =>
      cases phase2 : resolved.foldlM (lint.tune lints) ∅ with
      | error failure =>
          refine .inl ⟨failure, ?_⟩
          dsimp only
          rw [phase2]
      | ok clones =>
          refine .inr ⟨resolved, clones, rfl, phase2, ?_⟩
          dsimp only
          rw [phase2]

theorem applyParameterOverrides_error {lints : List σ} {failure : OverrideError}
    (failed : (lint.applyParameterOverrides lints overrides).1 = .error failure) :
    (lint.applyParameterOverrides lints overrides).2 = lints := by
  rcases applyParameterOverrides_cases lints overrides with
    ⟨failure, outcome⟩ | ⟨resolved, clones, _, _, outcome⟩
  · rw [outcome]
  · rw [outcome] at failed
    cases failed

theorem state_empty {lints : List σ} (index : Fin lints.length) :
    Clones.state (∅ : Clones lints) index = lints[index] := rfl

theorem applyParameterOverrides_applied (runner : TunableRunner lint)
    (accepted : (lint.applyParameterOverrides runner.lints overrides).1 = .ok ()) :
    (∃ resolved, lint.ResolvedTo runner.lints overrides resolved) ∧
      List.Forall₂ (fun before after => lint.Applied runner.lints before before overrides after)
        runner.lints (lint.applyParameterOverrides runner.lints overrides).2 := by
  rcases applyParameterOverrides_cases runner.lints overrides with
    ⟨failure, outcome⟩ | ⟨resolved, clones, phase1, phase2, outcome⟩
  · rw [outcome] at accepted
    cases accepted
  · have owned := (resolveAll_ok_iff runner.unique).mp phase1
    refine ⟨⟨resolved, owned⟩, ?_⟩
    rw [outcome, List.forall₂_iff_get]
    refine ⟨(length_commit clones).symm, ?_⟩
    intro place within within'
    have applied := tuneAll_applied runner.unique owned phase2 ⟨place, within⟩
    have after := getElem?_commit clones ⟨place, within⟩
    rw [List.getElem?_eq_getElem within', Option.some.injEq] at after
    rw [← after, state_empty] at applied
    exact applied

theorem exists_resolvedTo {lints : List σ} (owned : ∀ override ∈ overrides, ∃ owner ∈ lints, ∃ param,
    lint.Owns lints override.paramId owner param) :
    ∃ resolved, lint.ResolvedTo lints overrides resolved := by
  induction overrides with
  | nil => exact ⟨[], .nil⟩
  | cons override rest ih =>
      rw [List.forall_mem_cons] at owned
      obtain ⟨owner, present, param, owns⟩ := owned.1
      obtain ⟨resolved, later⟩ := ih owned.2
      obtain ⟨place, within, same⟩ := List.mem_iff_getElem.mp present
      subst same
      exact ⟨(⟨place, within⟩, param, override) :: resolved, .cons ⟨owns, rfl⟩ later⟩

theorem owned_of_resolvedTo {lints : List σ}
    {resolved : List (Fin lints.length × ParamText × ParameterOverride)}
    (owned : lint.ResolvedTo lints overrides resolved) : ∀ override ∈ overrides, ∃ owner ∈ lints,
      ∃ param, lint.Owns lints override.paramId owner param := by
  induction owned with
  | nil => exact List.forall_mem_nil _
  | cons first _ ih =>
      exact List.forall_mem_cons.mpr
        ⟨⟨_, List.getElem_mem (Fin.isLt _), _, first.1⟩, ih⟩

/-- The overrides are accepted when each has an owner and its owner takes it. -/
theorem applyParameterOverrides_ok_iff (runner : TunableRunner lint) :
    (lint.applyParameterOverrides runner.lints overrides).1 = .ok () ↔
      (∀ override ∈ overrides, ∃ owner ∈ runner.lints, ∃ param,
        lint.Owns runner.lints override.paramId owner param) ∧
      ∀ before ∈ runner.lints, ∃ after,
        lint.Applied runner.lints before before overrides after := by
  constructor
  · intro accepted
    obtain ⟨⟨resolved, owned⟩, applied⟩ := applyParameterOverrides_applied runner accepted
    refine ⟨owned_of_resolvedTo owned, ?_⟩
    intro before present
    obtain ⟨place, within, same⟩ := List.mem_iff_getElem.mp present
    obtain ⟨lengths, each⟩ := List.forall₂_iff_get.mp applied
    subst same
    exact ⟨_, each place within (lengths ▸ within)⟩
  · intro condition
    obtain ⟨resolved, owned⟩ := exists_resolvedTo condition.1
    have phase1 := (resolveAll_ok_iff runner.unique).mpr owned
    have each : ∀ index : Fin runner.lints.length, ∃ state, lint.Applied runner.lints
        runner.lints[index] (Clones.state (∅ : Clones runner.lints) index) overrides state :=
      fun index => condition.2 _ (List.getElem_mem index.isLt)
    obtain ⟨clones, phase2⟩ := exists_tuneAll runner.unique owned each
    unfold Tunable.applyParameterOverrides
    rw [phase1]
    dsimp only
    rw [phase2]

/-- Whether they are accepted depends on the registered lints as a set. -/
theorem ok_iff_of_mem_iff {runner other : TunableRunner lint}
    (members : ∀ state, state ∈ other.lints ↔ state ∈ runner.lints) :
    (lint.applyParameterOverrides other.lints overrides).1 = .ok () ↔
      (lint.applyParameterOverrides runner.lints overrides).1 = .ok () := by
  have half : ∀ first second : TunableRunner lint,
      (∀ state, state ∈ second.lints ↔ state ∈ first.lints) →
      (lint.applyParameterOverrides first.lints overrides).1 = .ok () →
      (lint.applyParameterOverrides second.lints overrides).1 = .ok () := by
    intro first second same accepted
    rw [applyParameterOverrides_ok_iff] at accepted ⊢
    refine ⟨?_, ?_⟩
    · intro override listed
      obtain ⟨owner, present, param, owns⟩ := accepted.1 override listed
      exact ⟨owner, (same owner).mpr present, param, owns.of_mem_iff same⟩
    · intro before present
      obtain ⟨after, applied⟩ := accepted.2 before ((same before).mp present)
      exact ⟨after, applied.of_mem_iff same⟩
  exact ⟨half other runner (fun state => (members state).symm), half runner other members⟩

/-- A lint and what it has become. -/
def Tunable.Became (lint : Tunable σ) (lints : List σ) (overrides : List ParameterOverride)
    (before : σ) (pair : σ × σ) : Prop :=
  pair.1 = before ∧ lint.Applied lints before before overrides pair.2

theorem became_zip {registered lints after : List σ}
    (each : List.Forall₂ (fun before after => lint.Applied registered before before overrides after)
      lints after) :
    List.Forall₂ (lint.Became registered overrides) lints (lints.zip after) := by
  induction each with
  | nil => exact .nil
  | cons first _ ih => exact .cons ⟨rfl, first⟩ ih

theorem became_unique (registered : List σ) :
    Relator.RightUnique (lint.Became registered overrides) := by
  intro before pair pair' became became'
  have same := became.2.unique became'.2
  exact Prod.ext (became.1.trans became'.1.symm) same

/-- All overrides or none: after an error every lint is as before, and without one every lint has
taken the overrides that it owns and no others. In what order the lints are registered makes no
difference. -/
theorem applyParameterOverrides_exact (runner : TunableRunner lint)
    (overrides : List ParameterOverride) :
    (∀ failure, (lint.applyParameterOverrides runner.lints overrides).1 = .error failure →
      (lint.applyParameterOverrides runner.lints overrides).2 = runner.lints) ∧
    ((lint.applyParameterOverrides runner.lints overrides).1 = .ok () →
      List.Forall₂ (fun before after => lint.Applied runner.lints before before overrides after)
        runner.lints (lint.applyParameterOverrides runner.lints overrides).2) ∧
    ∀ other : TunableRunner lint, other.lints.Perm runner.lints →
      ((lint.applyParameterOverrides other.lints overrides).1 = .ok () ↔
        (lint.applyParameterOverrides runner.lints overrides).1 = .ok ()) ∧
      (other.lints.zip (lint.applyParameterOverrides other.lints overrides).2).Perm
        (runner.lints.zip (lint.applyParameterOverrides runner.lints overrides).2) := by
  refine ⟨fun failure => applyParameterOverrides_error, ?_, ?_⟩
  · intro accepted
    exact (applyParameterOverrides_applied runner accepted).2
  · intro other order
    have members : ∀ state, state ∈ other.lints ↔ state ∈ runner.lints :=
      fun state => order.mem_iff
    have outcome := @ok_iff_of_mem_iff _ _ overrides _ _ members
    refine ⟨outcome, ?_⟩
    by_cases accepted : (lint.applyParameterOverrides runner.lints overrides).1 = .ok ()
    · have here := became_zip (applyParameterOverrides_applied runner accepted).2
      have there := became_zip (applyParameterOverrides_applied other (outcome.mpr accepted)).2
      obtain ⟨pairs, ordered, same⟩ := List.perm_comp_forall₂ order here
      have moved : List.Forall₂ (lint.Became other.lints overrides) other.lints pairs := by
        refine ordered.imp ?_
        intro before pair became
        exact ⟨became.1, became.2.of_mem_iff members⟩
      rw [List.right_unique_forall₂' (became_unique other.lints) there moved]
      exact same
    · have refused : ∀ run : TunableRunner lint,
          (lint.applyParameterOverrides run.lints overrides).1 ≠ .ok () →
          (lint.applyParameterOverrides run.lints overrides).2 = run.lints := by
        intro run failed
        cases result : (lint.applyParameterOverrides run.lints overrides).1 with
        | error failure => exact applyParameterOverrides_error result
        | ok done => exact absurd result failed
      rw [refused runner accepted, refused other (fun done => accepted (outcome.mp done))]
      rw [List.zip_eq_zipWith, List.zip_eq_zipWith, List.zipWith_self, List.zipWith_self]
      exact order.map _

end Exactness

end Pkix.Lint
