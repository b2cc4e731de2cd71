import Mathlib.Algebra.Order.Ring.Nat
import Mathlib.Data.List.Nodup
import Mathlib.Tactic.Common

/-! Depth-first enumeration of paths. A path is a list of choices; `ends` says where a path
is complete, `next` which choices may follow it, in the order they are tried. A complete path
is not extended. -/

namespace Pkix.DepthFirst

variable {ι : Type} (ends : List ι → Bool) (next : List ι → List ι)

/-- The complete paths from `path` with at most `depth` further choices. -/
def enumerate : (depth : Nat) → (path : List ι) → List (List ι)
  | 0, path => if ends path then [path] else []
  | depth + 1, path =>
      if ends path then [path]
      else (next path).flatMap (fun choice => enumerate depth (path ++ [choice]))

/-- The number of paths the enumeration looks at. -/
def visits : (depth : Nat) → (path : List ι) → Nat
  | 0, _ => 1
  | depth + 1, path =>
      if ends path then 1
      else 1 + ((next path).map (fun choice => visits depth (path ++ [choice]))).sum

/-- The choices of `tail` are offered in turn after `path`, and no path before its end is
complete. -/
def Admits (path tail : List ι) : Prop :=
  ∀ (position : Nat) (choice : ι), tail[position]? = some choice →
    ends (path ++ tail.take position) = false ∧ choice ∈ next (path ++ tail.take position)

variable {ends next}

theorem enumerate_ends {depth : Nat} {path : List ι} (complete : ends path = true) :
    enumerate ends next depth path = [path] := by
  cases depth <;> simp [enumerate, complete]

theorem visits_ends {depth : Nat} {path : List ι} (complete : ends path = true) :
    visits ends next depth path = 1 := by
  cases depth <;> simp [visits, complete]

theorem enumerate_zero {path : List ι} (incomplete : ends path = false) :
    enumerate ends next 0 path = [] := by
  simp [enumerate, incomplete]

theorem enumerate_succ {depth : Nat} {path : List ι} (incomplete : ends path = false) :
    enumerate ends next (depth + 1) path =
      (next path).flatMap (fun choice => enumerate ends next depth (path ++ [choice])) := by
  simp [enumerate, incomplete]

theorem visits_succ {depth : Nat} {path : List ι} (incomplete : ends path = false) :
    visits ends next (depth + 1) path =
      1 + ((next path).map (fun choice => visits ends next depth (path ++ [choice]))).sum := by
  simp [visits, incomplete]

theorem visits_pos (depth : Nat) (path : List ι) : 0 < visits ends next depth path := by
  cases depth with
  | zero => exact Nat.one_pos
  | succ depth =>
      cases complete : ends path with
      | true =>
          rw [visits_ends complete]
          exact Nat.one_pos
      | false =>
          rw [visits_succ complete]
          omega

theorem admits_nil (path : List ι) : Admits ends next path [] := by
  intro position choice located
  simp at located

theorem admits_cons_iff {path tail : List ι} {choice : ι} :
    Admits ends next path (choice :: tail) ↔
      ends path = false ∧ choice ∈ next path ∧ Admits ends next (path ++ [choice]) tail := by
  constructor
  · intro admits
    have first := admits 0 choice rfl
    rw [List.take_zero, List.append_nil] at first
    refine ⟨first.1, first.2, ?_⟩
    intro position later located
    have step := admits (position + 1) later located
    rwa [List.take_succ_cons, List.append_cons] at step
  · intro ⟨incomplete, offered, admits⟩ position later located
    cases position with
    | zero =>
        cases located
        rw [List.take_zero, List.append_nil]
        exact ⟨incomplete, offered⟩
    | succ position =>
        have step := admits position later located
        rwa [List.take_succ_cons, List.append_cons]

theorem admits_concat_iff {path tail : List ι} {choice : ι} :
    Admits ends next path (tail ++ [choice]) ↔
      Admits ends next path tail ∧ ends (path ++ tail) = false ∧ choice ∈ next (path ++ tail) := by
  induction tail generalizing path with
  | nil =>
      rw [List.nil_append, admits_cons_iff, List.append_nil]
      simp only [admits_nil, true_and, and_true]
  | cons first tail ih =>
      rw [List.cons_append, admits_cons_iff, ih, admits_cons_iff]
      simp only [List.append_assoc, List.singleton_append, and_assoc]

/-- What is enumerated: the complete paths reached by offered choices. -/
theorem mem_enumerate_iff {depth : Nat} {path reached : List ι} :
    reached ∈ enumerate ends next depth path ↔
      ∃ tail, reached = path ++ tail ∧ tail.length ≤ depth ∧ ends reached = true ∧
        Admits ends next path tail := by
  induction depth generalizing path with
  | zero =>
      constructor
      · intro member
        cases complete : ends path with
        | false => simp [enumerate_zero complete] at member
        | true =>
            rw [enumerate_ends complete, List.mem_singleton] at member
            subst member
            exact ⟨[], by simp, Nat.le_refl _, complete, admits_nil reached⟩
      · intro ⟨tail, same, short, complete, _⟩
        have empty : tail = [] := List.length_eq_zero_iff.mp (Nat.le_zero.mp short)
        rw [empty, List.append_nil] at same
        subst same
        simp [enumerate_ends complete]
  | succ depth ih =>
      cases complete : ends path with
      | true =>
          rw [enumerate_ends complete, List.mem_singleton]
          constructor
          · intro same
            subst same
            exact ⟨[], by simp, by simp, complete, admits_nil reached⟩
          · intro ⟨tail, same, _, _, admits⟩
            cases tail with
            | nil => simpa using same
            | cons choice tail =>
                have incomplete := (admits_cons_iff.mp admits).1
                rw [complete] at incomplete
                cases incomplete
      | false =>
          rw [enumerate_succ complete, List.mem_flatMap]
          constructor
          · intro ⟨choice, offered, member⟩
            rcases ih.mp member with ⟨tail, same, short, closed, admits⟩
            refine ⟨choice :: tail, by simpa using same, by simpa using short, closed, ?_⟩
            exact admits_cons_iff.mpr ⟨complete, offered, admits⟩
          · intro ⟨tail, same, short, closed, admits⟩
            cases tail with
            | nil =>
                rw [List.append_nil] at same
                rw [same, complete] at closed
                cases closed
            | cons choice tail =>
                rcases admits_cons_iff.mp admits with ⟨_, offered, admits⟩
                refine ⟨choice, offered, ih.mpr ⟨tail, by simpa using same, ?_, closed, admits⟩⟩
                simpa using short

theorem nodup_enumerate (distinct : ∀ path, (next path).Nodup) (depth : Nat) (path : List ι) :
    (enumerate ends next depth path).Nodup := by
  induction depth generalizing path with
  | zero =>
      cases complete : ends path with
      | true => simp [enumerate_ends complete]
      | false => simp [enumerate_zero complete]
  | succ depth ih =>
      cases complete : ends path with
      | true => simp [enumerate_ends complete]
      | false =>
          rw [enumerate_succ complete, List.nodup_flatMap]
          refine ⟨fun choice _ => ih (path ++ [choice]), ?_⟩
          -- two choices lead to paths that differ right after `path`
          apply (distinct path).imp
          intro first second different
          apply List.disjoint_left.mpr
          intro reached fromFirst fromSecond
          rcases mem_enumerate_iff.mp fromFirst with ⟨tail, same, _⟩
          rcases mem_enumerate_iff.mp fromSecond with ⟨tail', same', _⟩
          rw [same, List.append_assoc, List.append_assoc, List.append_cancel_left_eq] at same'
          exact different (List.cons.inj same').1

section Agenda

/-- A path whose choices are being tried, with those still to try. -/
structure Level (ι : Type) where
  path : List ι
  todo : List ι

variable (ends next) in
def Level.paths (limit : Nat) (level : Level ι) : List (List ι) :=
  level.todo.flatMap (fun choice =>
    enumerate ends next (limit - (level.path.length + 1)) (level.path ++ [choice]))

variable (ends next) in
def Level.visits (limit : Nat) (level : Level ι) : Nat :=
  (level.todo.map (fun choice =>
    DepthFirst.visits ends next (limit - (level.path.length + 1)) (level.path ++ [choice]))).sum

variable (ends next) in
/-- What is left of an interrupted enumeration, the deepest level first. -/
def agendaPaths (limit : Nat) (levels : List (Level ι)) : List (List ι) :=
  levels.flatMap (Level.paths ends next limit)

variable (ends next) in
def agendaVisits (limit : Nat) (levels : List (Level ι)) : Nat :=
  (levels.map (Level.visits ends next limit)).sum

variable {limit : Nat} {path todo : List ι} {choice : ι} {levels : List (Level ι)}

theorem agendaPaths_done :
    agendaPaths ends next limit (⟨path, []⟩ :: levels) = agendaPaths ends next limit levels := by
  simp [agendaPaths, Level.paths]

theorem agendaVisits_done :
    agendaVisits ends next limit (⟨path, []⟩ :: levels) = agendaVisits ends next limit levels := by
  simp [agendaVisits, Level.visits]

theorem agendaPaths_choose :
    agendaPaths ends next limit (⟨path, choice :: todo⟩ :: levels) =
      enumerate ends next (limit - (path.length + 1)) (path ++ [choice]) ++
        agendaPaths ends next limit (⟨path, todo⟩ :: levels) := by
  simp [agendaPaths, Level.paths]

theorem agendaVisits_choose :
    agendaVisits ends next limit (⟨path, choice :: todo⟩ :: levels) =
      visits ends next (limit - (path.length + 1)) (path ++ [choice]) +
        agendaVisits ends next limit (⟨path, todo⟩ :: levels) := by
  simp [agendaVisits, Level.visits, Nat.add_assoc]

/-- Looking at an incomplete path within the limit opens a level for its choices. -/
theorem enumerate_open (incomplete : ends path = false) (within : path.length < limit) :
    enumerate ends next (limit - path.length) path ++ agendaPaths ends next limit levels =
      agendaPaths ends next limit (⟨path, next path⟩ :: levels) := by
  have deeper : limit - path.length = limit - (path.length + 1) + 1 := by omega
  rw [deeper, enumerate_succ incomplete]
  simp [agendaPaths, Level.paths]

theorem visits_open (incomplete : ends path = false) (within : path.length < limit) :
    visits ends next (limit - path.length) path + agendaVisits ends next limit levels =
      1 + agendaVisits ends next limit (⟨path, next path⟩ :: levels) := by
  have deeper : limit - path.length = limit - (path.length + 1) + 1 := by omega
  rw [deeper, visits_succ incomplete]
  simp [agendaVisits, Level.visits, Nat.add_assoc]

end Agenda

end Pkix.DepthFirst
