import Pkix.Lib.Octets
import Pkix.Lib.Walk

/-! Readers that consume the front of a byte string, and the writers they undo. A reader is
exact for a writer when it succeeds on just the inputs that start with a written value. -/

namespace Pkix.Framing

open Octets Walk

variable {σ ε α β : Type}

abbrev Reader (σ ε α : Type) := StateT (List σ) (Except ε) α

/-- The `valid` values are those the format can carry. -/
def Exact (read : Reader σ ε α) (write : α → List σ) (valid : α → Prop) : Prop :=
  ∀ input value rest, read input = .ok (value, rest) ↔ valid value ∧ input = write value ++ rest

/-- What an exact reader is for ends at one place of the input. -/
theorem Exact.cut {read : Reader σ ε α} {write : α → List σ} {valid : α → Prop} {a b : α}
    {rest rest' : List σ} (exact : Exact read write valid) (validA : valid a) (validB : valid b)
    (same : write a ++ rest = write b ++ rest') : a = b ∧ rest = rest' := by
  have readA : read (write a ++ rest) = .ok (a, rest) := (exact _ _ _).mpr ⟨validA, rfl⟩
  have readB : read (write a ++ rest) = .ok (b, rest') := (exact _ _ _).mpr ⟨validB, same⟩
  rw [readA, Except.ok.injEq, Prod.mk.injEq] at readB
  exact readB

section Steps

theorem read_bind_ok {first : Reader σ ε α} {next : α → Reader σ ε β} {input rest : List σ}
    {result : β} :
    (first >>= next) input = .ok (result, rest) ↔
      ∃ value middle, first input = .ok (value, middle) ∧
        next value middle = .ok (result, rest) := by
  constructor
  · intro finished
    obtain ⟨⟨value, middle⟩, read, later⟩ := bind_ok.mp finished
    exact ⟨value, middle, read, later⟩
  · intro steps
    obtain ⟨value, middle, read, later⟩ := steps
    exact bind_ok.mpr ⟨(value, middle), read, later⟩

theorem read_pure_ok {value result : α} {input rest : List σ} :
    (pure value : Reader σ ε α) input = .ok (result, rest) ↔ value = result ∧ input = rest := by
  change Except.ok (value, input) = .ok (result, rest) ↔ _
  rw [Except.ok.injEq, Prod.mk.injEq]

theorem read_throw_ok {failure : ε} {value : α} {input rest : List σ} :
    (throw failure : Reader σ ε α) input = .ok (value, rest) ↔ False := by
  simp [throw, throwThe, MonadExceptOf.throw, StateT.lift, bind, Except.bind]

theorem read_lift_ok {result : Except ε α} {value : α} {input rest : List σ} :
    (liftM result : Reader σ ε α) input = .ok (value, rest) ↔
      result = .ok value ∧ input = rest := by
  cases result with
  | error failure => simp [liftM, monadLift, MonadLift.monadLift, StateT.lift, bind, Except.bind]
  | ok found =>
      simp [liftM, monadLift, MonadLift.monadLift, StateT.lift, bind, Except.bind, pure,
        Except.pure]

end Steps

/-- A value and nothing after it. -/
def readWhole (read : Reader σ ε α) (trailing : ε) (input : List σ) : Except ε α :=
  match read input with
  | .error failure => .error failure
  | .ok (value, rest) => if rest.isEmpty then .ok value else .error trailing

theorem readWhole_ok_iff {read : Reader σ ε α} {write : α → List σ} {valid : α → Prop}
    (exact : Exact read write valid) (trailing : ε) (input : List σ) (value : α) :
    readWhole read trailing input = .ok value ↔ valid value ∧ input = write value := by
  have whole : readWhole read trailing input = .ok value ↔ read input = .ok (value, []) := by
    unfold readWhole
    cases read input with
    | error failure => simp
    | ok found =>
        cases found with
        | mk reached rest => cases rest <;> simp
  rw [whole, exact, List.append_nil]

/-- Values one after the other until the input is used up; every reading step
shortens the input. -/
def readAll (read : Reader σ ε α)
    (consumes : ∀ input value rest, read input = .ok (value, rest) → rest.length < input.length)
    (input : List σ) : Except ε (List α) :=
  if input.isEmpty then .ok []
  else
    match found : read input with
    | .error failure => .error failure
    | .ok (value, rest) => (readAll read consumes rest).map (value :: ·)
termination_by input.length
decreasing_by exact consumes _ _ _ found

section All

variable {read : Reader σ ε α} {write : α → List σ} {valid : α → Prop}

theorem map_cons_ok {first : α} {others : Except ε (List α)} {values : List α} :
    others.map (first :: ·) = .ok values ↔
      ∃ later, others = .ok later ∧ values = first :: later := by
  cases others with
  | error failure => simp [Except.map]
  | ok later => simp [Except.map, eq_comm]

theorem readAll_ok_iff (consumes) (exact : Exact read write valid)
    (nonempty : ∀ value, write value ≠ []) (input : List σ) (values : List α) :
    readAll read consumes input = .ok values ↔
      (∀ value ∈ values, valid value) ∧ input = values.flatMap write := by
  fun_induction readAll read consumes input generalizing values with
  | case1 input empty =>
      have none : input = [] := List.isEmpty_iff.mp empty
      subst none
      cases values with
      | nil => simp
      | cons value values => simp [nonempty value]
  | case2 input more failure failed =>
      have unreadable : ∀ value rest, ¬ (valid value ∧ input = write value ++ rest) := by
        intro value rest present
        rw [(exact input value rest).mpr present] at failed
        cases failed
      cases values with
      | nil => simpa using more
      | cons value values =>
          simp only [reduceCtorEq, List.mem_cons, forall_eq_or_imp, List.flatMap_cons, false_iff]
          intro written
          exact unreadable value _ ⟨written.1.1, written.2⟩
  | case3 input more value rest found ih =>
      rw [map_cons_ok]
      have front := (exact input value rest).mp found
      constructor
      · intro finished
        obtain ⟨later, read, together⟩ := finished
        obtain ⟨allValid, restWritten⟩ := (ih later).mp read
        subst together
        rw [List.forall_mem_cons, List.flatMap_cons, ← restWritten]
        exact ⟨⟨front.1, allValid⟩, front.2⟩
      · intro written
        cases values with
        | nil => exact absurd (List.isEmpty_iff.mpr written.2) more
        | cons first later =>
            rw [List.forall_mem_cons, List.flatMap_cons] at written
            have again := (exact input first _).mpr ⟨written.1.1, written.2⟩
            rw [found] at again
            cases again
            exact ⟨later, (ih later).mpr ⟨written.1.2, rfl⟩, rfl⟩

end All

section Octets

variable (truncated : ε)

def readBytes (count : Nat) : Reader UInt8 ε (List UInt8) := fun data =>
  if data.length < count then .error truncated else .ok (data.splitAt count)

theorem readBytes_exact (count : Nat) :
    Exact (readBytes truncated count) id (fun bytes => bytes.length = count) := by
  intro input bytes rest
  unfold readBytes
  rw [List.splitAt_eq]
  constructor
  · intro read
    split at read
    · cases read
    · rename_i long
      cases read
      exact ⟨List.length_take_of_le (Nat.not_lt.mp long), (List.take_append_drop ..).symm⟩
  · intro written
    obtain ⟨length, together⟩ := written
    subst together length
    simp

/-- A big-endian number of `width` octets. -/
def readNumber (width : Nat) : Reader UInt8 ε Nat := do
  let bytes ← readBytes truncated width
  return bigEndian bytes

theorem readNumber_exact (width : Nat) :
    Exact (readNumber truncated width) (toBigEndian width) (· < 256 ^ width) := by
  intro input value rest
  simp only [readNumber, read_bind_ok, read_pure_ok, readBytes_exact truncated width input, id]
  constructor
  · intro read
    obtain ⟨bytes, middle, ⟨length, together⟩, number, same⟩ := read
    subst length number same
    exact ⟨bigEndian_lt bytes, by rw [toBigEndian_bigEndian]; exact together⟩
  · intro written
    exact ⟨toBigEndian width value, rest, ⟨length_toBigEndian .., written.2⟩,
      bigEndian_toBigEndian written.1, rfl⟩

/-- A length of `width` octets, and that many octets. -/
def readPrefixed (width : Nat) : Reader UInt8 ε (List UInt8) := do
  let length ← readNumber truncated width
  readBytes truncated length

def writePrefixed (width : Nat) (body : List UInt8) : List UInt8 :=
  toBigEndian width body.length ++ body

theorem readPrefixed_exact (width : Nat) :
    Exact (readPrefixed truncated width) (writePrefixed width) (·.length < 256 ^ width) := by
  intro input body rest
  simp only [readPrefixed, read_bind_ok, readNumber_exact truncated width input]
  constructor
  · intro read
    obtain ⟨length, middle, ⟨small, together⟩, later⟩ := read
    obtain ⟨exactly, remaining⟩ := (readBytes_exact truncated length middle body rest).mp later
    subst exactly together remaining
    exact ⟨small, by simp [writePrefixed]⟩
  · intro written
    refine ⟨body.length, body ++ rest, ⟨written.1, ?_⟩,
      (readBytes_exact truncated _ _ body rest).mpr ⟨rfl, rfl⟩⟩
    rw [written.2, writePrefixed, List.append_assoc]

/-- An octet that tells whether a body follows. -/
def writeOptional : Option (List UInt8) → List UInt8
  | none => [0]
  | some body => 1 :: body

theorem writeOptional_cut {width : Nat} {a b : Option (List UInt8)} {rest rest' : List UInt8}
    (lengthA : ∀ body ∈ a, body.length = width) (lengthB : ∀ body ∈ b, body.length = width)
    (same : writeOptional a ++ rest = writeOptional b ++ rest') : a = b ∧ rest = rest' := by
  cases a with
  | none =>
      cases b with
      | none => exact ⟨rfl, List.tail_eq_of_cons_eq same⟩
      | some body => exact absurd (List.head_eq_of_cons_eq same) (by decide)
  | some body =>
      cases b with
      | none => exact absurd (List.head_eq_of_cons_eq same) (by decide)
      | some body' =>
          have lengths : body.length = body'.length :=
            (lengthA body rfl).trans (lengthB body' rfl).symm
          obtain ⟨bodies, rests⟩ := List.append_inj (List.tail_eq_of_cons_eq same) lengths
          exact ⟨congrArg some bodies, rests⟩

end Octets

end Pkix.Framing
