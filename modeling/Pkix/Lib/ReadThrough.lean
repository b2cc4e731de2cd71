import Mathlib.Data.List.Forall2

/-! A cache read in front of sources that are asked in turn until one gives something usable,
and calls served one after the other over one store. -/

namespace Pkix.ReadThrough

/-- The number tells how many sources stand before this one. -/
structure Sources (Source Response Checker Failure Note : Type) where
  fetch : Nat → Source → Except Note Response
  accept : Response → Except Failure Checker
  faultNote : Source → Note → Note
  parseNote : Source → Failure → Note

structure Reader (Store Source Entry Response Checker Failure Note : Type) extends
    Sources Source Response Checker Failure Note where
  live : Store → Source → Option Entry
  content : Entry → Response
  drop : Store → Source → Store
  keep : Store → Source → Response → Store
  staleNote : Source → Failure → Note

/-- Where a checker was found: in a held entry, in a fetched response, or nowhere. -/
inductive Reading (Source Entry Response Checker Note : Type)
  | exhausted (notes : List Note)
  | held (source : Source) (entry : Entry) (checker : Checker)
  | fetched (source : Source) (response : Response) (checker : Checker)

section Readings

variable {Source Entry Response Checker Note Outcome Value : Type}

def Reading.found (content : Entry → Response) :
    Reading Source Entry Response Checker Note → Option (Response × Checker)
  | .exhausted _ => none
  | .held _ entry checker => some (content entry, checker)
  | .fetched _ response checker => some (response, checker)

def Reading.conclude (giveUp : List Note → Outcome) (judge : Checker → Outcome) :
    Reading Source Entry Response Checker Note → Outcome
  | .exhausted notes => giveUp notes
  | .held _ _ checker => judge checker
  | .fetched _ _ checker => judge checker

variable {content : Entry → Response} {giveUp : List Note → Outcome}
variable {judge : Checker → Outcome} {value : Outcome → Value}
variable {reading other : Reading Source Entry Response Checker Note}

theorem Reading.conclude_some {response : Response} {checker : Checker}
    (given : reading.found content = some (response, checker)) :
    reading.conclude giveUp judge = judge checker := by
  cases reading with
  | exhausted notes => cases given
  | held source entry here =>
      cases given
      rfl
  | fetched source response here =>
      cases given
      rfl

theorem Reading.conclude_none (given : reading.found content = none) :
    ∃ notes, reading.conclude giveUp judge = giveUp notes := by
  cases reading with
  | exhausted notes => exact ⟨notes, rfl⟩
  | held source entry here => cases given
  | fetched source response here => cases given

/-- With giving up worth the same whatever was noted, what is concluded is worth what was
found. -/
theorem Reading.conclude_congr (same : reading.found content = other.found content)
    (alike : ∀ notes notes', value (giveUp notes) = value (giveUp notes')) :
    value (reading.conclude giveUp judge) = value (other.conclude giveUp judge) := by
  cases given : other.found content with
  | none =>
      have otherGaveUp : ∃ notes, other.conclude giveUp judge = giveUp notes := conclude_none given
      have gaveUp : ∃ notes, reading.conclude giveUp judge = giveUp notes :=
        conclude_none (same.trans given)
      rcases otherGaveUp with ⟨otherNotes, isOther⟩
      rcases gaveUp with ⟨notes, isReading⟩
      rw [isReading, isOther]
      exact alike notes otherNotes
  | some pair => rw [conclude_some given, conclude_some (same.trans given)]

end Readings

section Reads

variable {Store Source Entry Response Checker Failure Note : Type}

def Sources.poll (asked : Sources Source Response Checker Failure Note) :
    (attempt : Nat) → List Source → (notes : List Note) →
      Reading Source Entry Response Checker Note
  | _, [], notes => .exhausted notes
  | attempt, source :: sources, notes =>
      match asked.fetch attempt source with
      | .error fault => asked.poll (attempt + 1) sources (notes ++ [asked.faultNote source fault])
      | .ok response =>
          match asked.accept response with
          | .ok checker => .fetched source response checker
          | .error failure =>
              asked.poll (attempt + 1) sources (notes ++ [asked.parseNote source failure])

/-- The lookup in the cache: a reading, or the store and the notes to go on with. -/
def Reader.consult (reader : Reader Store Source Entry Response Checker Failure Note)
    (store : Store) (source : Source) (notes : List Note) :
    Except (Store × List Note) (Reading Source Entry Response Checker Note) :=
  match reader.live store source with
  | none => .error (store, notes)
  | some entry =>
      match reader.accept (reader.content entry) with
      | .ok checker => .ok (.held source entry checker)
      | .error failure =>
          .error (reader.drop store source, notes ++ [reader.staleNote source failure])

def Reader.read (reader : Reader Store Source Entry Response Checker Failure Note) :
    (attempt : Nat) → Store → List Source → (notes : List Note) →
      Reading Source Entry Response Checker Note × Store
  | _, store, [], notes => (.exhausted notes, store)
  | attempt, store, source :: sources, notes =>
      match reader.consult store source notes with
      | .ok reading => (reading, store)
      | .error (store, notes) =>
          match reader.fetch attempt source with
          | .error fault =>
              reader.read (attempt + 1) store sources (notes ++ [reader.faultNote source fault])
          | .ok response =>
              match reader.accept response with
              | .ok checker =>
                  (.fetched source response checker, reader.keep store source response)
              | .error failure =>
                  reader.read (attempt + 1) store sources
                    (notes ++ [reader.parseNote source failure])

variable {reader : Reader Store Source Entry Response Checker Failure Note}
variable {store : Store} {source : Source} {sources : List Source} {attempt : Nat}
variable {notes : List Note}

/-- What the source gives, if anything, is not usable. -/
def Sources.Skips (asked : Sources Source Response Checker Failure Note) (attempt : Nat)
    (source : Source) : Prop :=
  ∀ response checker, asked.fetch attempt source = .ok response →
    asked.accept response ≠ .ok checker

section Polls

variable {asked : Sources Source Response Checker Failure Note}

theorem poll_usable {response : Response} {checker : Checker}
    (fetched : asked.fetch attempt source = .ok response)
    (accepted : asked.accept response = .ok checker) :
    asked.poll attempt (source :: sources) notes =
      (.fetched source response checker : Reading Source Entry Response Checker Note) := by
  unfold Sources.poll
  rw [fetched]
  dsimp only
  rw [accepted]

theorem poll_skips (skips : asked.Skips attempt source) :
    ∃ later, (asked.poll attempt (source :: sources) notes :
        Reading Source Entry Response Checker Note) =
      asked.poll (attempt + 1) sources later := by
  cases fetched : asked.fetch attempt source with
  | error fault =>
      refine ⟨notes ++ [asked.faultNote source fault], ?_⟩
      rw [Sources.poll, fetched]
  | ok response =>
      cases accepted : asked.accept response with
      | ok checker => exact absurd accepted (skips response checker fetched)
      | error failure =>
          refine ⟨notes ++ [asked.parseNote source failure], ?_⟩
          rw [Sources.poll, fetched]
          dsimp only
          rw [accepted]

theorem usable_or_skips (asked : Sources Source Response Checker Failure Note) (attempt : Nat)
    (source : Source) :
    (∃ response checker, asked.fetch attempt source = .ok response ∧
      asked.accept response = .ok checker) ∨ asked.Skips attempt source := by
  by_cases usable : ∃ response checker, asked.fetch attempt source = .ok response ∧
      asked.accept response = .ok checker
  · exact .inl usable
  · exact .inr fun response checker fetched accepted =>
      usable ⟨response, checker, fetched, accepted⟩

theorem poll_exhausted_or_fetched :
    (∃ left, (asked.poll attempt sources notes : Reading Source Entry Response Checker Note) =
      .exhausted left) ∨
    ∃ source response checker, (asked.poll attempt sources notes :
      Reading Source Entry Response Checker Note) = .fetched source response checker := by
  induction sources generalizing attempt notes with
  | nil => exact .inl ⟨notes, rfl⟩
  | cons source sources ih =>
      rcases usable_or_skips asked attempt source with
        ⟨response, checker, fetched, accepted⟩ | skips
      · exact .inr ⟨source, response, checker, poll_usable fetched accepted⟩
      · have passed : ∃ later, (asked.poll attempt (source :: sources) notes :
            Reading Source Entry Response Checker Note) =
            asked.poll (attempt + 1) sources later := poll_skips skips
        rcases passed with ⟨later, same⟩
        rw [same]
        exact ih

/-- What is fetched comes from the first source that gives something usable. -/
theorem poll_fetched_iff {response : Response} {checker : Checker} :
    (asked.poll attempt sources notes : Reading Source Entry Response Checker Note) =
        .fetched source response checker ↔
      ∃ before after, sources = before ++ source :: after ∧
        (∀ position skipped, before[position]? = some skipped →
          asked.Skips (attempt + position) skipped) ∧
        asked.fetch (attempt + before.length) source = .ok response ∧
        asked.accept response = .ok checker := by
  induction sources generalizing attempt notes with
  | nil => simp [Sources.poll]
  | cons first sources ih =>
      rcases usable_or_skips asked attempt first with ⟨given, judge, fetched, accepted⟩ | skips
      · rw [poll_usable fetched accepted]
        constructor
        · intro same
          cases same
          exact ⟨[], sources, rfl, by simp, fetched, accepted⟩
        · intro ⟨before, after, split, skipped, fetched', accepted'⟩
          cases before with
          | nil =>
              cases split
              cases fetched.symm.trans fetched'
              cases accepted.symm.trans accepted'
              rfl
          | cons head before =>
              cases split
              exact absurd accepted (skipped 0 first rfl given judge fetched)
      · have passed : ∃ later, (asked.poll attempt (first :: sources) notes :
            Reading Source Entry Response Checker Note) =
            asked.poll (attempt + 1) sources later := poll_skips skips
        rcases passed with ⟨later, same⟩
        have shift (position : Nat) : attempt + 1 + position = attempt + (position + 1) := by omega
        rw [same, ih]
        simp only [shift]
        constructor
        · intro ⟨before, after, split, skipped, fetched, accepted⟩
          refine ⟨first :: before, after, by rw [split, List.cons_append], ?_, ?_, accepted⟩
          · intro position other located
            cases position with
            | zero =>
                cases Option.some.inj located
                exact skips
            | succ position => exact skipped position other located
          · exact fetched
        · intro ⟨before, after, split, skipped, fetched, accepted⟩
          cases before with
          | nil =>
              cases split
              exact absurd accepted (skips response checker fetched)
          | cons head before =>
              cases split
              exact ⟨before, after, rfl,
                fun position other located => skipped (position + 1) other located, fetched,
                accepted⟩

/-- An outcome that giving up never has is that of the first source with something usable. -/
theorem conclude_poll_iff {Outcome : Type} {giveUp : List Note → Outcome}
    {judge : Checker → Outcome} {good : Outcome} (lost : ∀ left, giveUp left ≠ good) :
    (asked.poll attempt sources notes :
        Reading Source Entry Response Checker Note).conclude giveUp judge = good ↔
      ∃ before source after response checker, sources = before ++ source :: after ∧
        (∀ position skipped, before[position]? = some skipped →
          asked.Skips (attempt + position) skipped) ∧
        asked.fetch (attempt + before.length) source = .ok response ∧
        asked.accept response = .ok checker ∧ judge checker = good := by
  have outcome : (∃ left, (asked.poll attempt sources notes :
        Reading Source Entry Response Checker Note) = .exhausted left) ∨
      ∃ source response checker, (asked.poll attempt sources notes :
        Reading Source Entry Response Checker Note) = .fetched source response checker :=
    poll_exhausted_or_fetched
  constructor
  · intro passed
    rcases outcome with ⟨left, same⟩ | ⟨source, response, checker, same⟩
    · rw [same] at passed
      exact absurd passed (lost left)
    · rw [same] at passed
      rcases poll_fetched_iff.mp same with ⟨before, after, split, skipped, fetched, accepted⟩
      exact ⟨before, source, after, response, checker, split, skipped, fetched, accepted, passed⟩
  · intro ⟨before, source, after, response, checker, split, skipped, fetched, accepted, passed⟩
    have same : (asked.poll attempt sources notes :
        Reading Source Entry Response Checker Note) = .fetched source response checker :=
      poll_fetched_iff.mpr ⟨before, after, split, skipped, fetched, accepted⟩
    rw [same]
    exact passed

end Polls

theorem consult_cases :
    (∃ entry checker, reader.live store source = some entry ∧
      reader.accept (reader.content entry) = .ok checker ∧
      reader.consult store source notes = .ok (.held source entry checker)) ∨
    ∃ left, (left.1 = store ∨ left.1 = reader.drop store source) ∧
      reader.consult store source notes = .error left := by
  unfold Reader.consult
  cases found : reader.live store source with
  | none => exact .inr ⟨_, .inl rfl, rfl⟩
  | some entry =>
      dsimp only
      cases accepted : reader.accept (reader.content entry) with
      | ok checker => exact .inl ⟨entry, checker, rfl, accepted, rfl⟩
      | error failure => exact .inr ⟨_, .inr rfl, rfl⟩

/-- All that a read can do with its first source: answer from the entry, or go on with the
store as it was or without the entry, to answer from what is fetched or to pass. -/
theorem read_cases :
    (∃ entry checker, reader.live store source = some entry ∧
      reader.accept (reader.content entry) = .ok checker ∧
      reader.read attempt store (source :: sources) notes =
        (.held source entry checker, store)) ∨
    ∃ left, (left = store ∨ left = reader.drop store source) ∧
      ((∃ response checker, reader.fetch attempt source = .ok response ∧
          reader.accept response = .ok checker ∧
          reader.read attempt store (source :: sources) notes =
            (.fetched source response checker, reader.keep left source response)) ∨
        reader.Skips attempt source ∧ ∃ later,
          reader.read attempt store (source :: sources) notes =
            reader.read (attempt + 1) left sources later) := by
  rw [Reader.read]
  rcases @consult_cases _ _ _ _ _ _ _ reader store source notes with
    ⟨entry, checker, found, accepted, consulted⟩ | ⟨left, isLeft, consulted⟩
  · rw [consulted]
    exact .inl ⟨entry, checker, found, accepted, rfl⟩
  · rw [consulted]
    refine .inr ⟨left.1, isLeft, ?_⟩
    dsimp only
    cases fetched : reader.fetch attempt source with
    | error fault =>
        have skips : reader.Skips attempt source := by
          intro response checker given
          rw [fetched] at given
          cases given
        exact .inr ⟨skips, left.2 ++ [reader.faultNote source fault], rfl⟩
    | ok response =>
        dsimp only
        cases accepted : reader.accept response with
        | ok checker => exact .inl ⟨response, checker, rfl, accepted, rfl⟩
        | error failure =>
            have skips : reader.Skips attempt source := by
              intro other checker given taken
              rw [fetched] at given
              cases given
              rw [accepted] at taken
              cases taken
            exact .inr ⟨skips, left.2 ++ [reader.parseNote source failure], rfl⟩

/-- The rule for stores: what dropping and keeping preserve, a read preserves. -/
theorem read_keeps {holds : Store → Prop}
    (dropped : ∀ store source, holds store → holds (reader.drop store source))
    (kept : ∀ store source attempt response, source ∈ sources →
      reader.fetch attempt source = .ok response → holds store →
      holds (reader.keep store source response))
    (start : holds store) : holds (reader.read attempt store sources notes).2 := by
  induction sources generalizing attempt store notes with
  | nil => exact start
  | cons source sources ih =>
      rcases @read_cases _ _ _ _ _ _ _ reader store source sources attempt notes with
        ⟨_, _, _, _, isRead⟩ | ⟨left, isLeft, outcome⟩
      · rw [isRead]
        exact start
      · have leftHolds : holds left := by
          rcases isLeft with same | gone
          · rw [same]
            exact start
          · rw [gone]
            exact dropped store source start
        rcases outcome with ⟨response, _, fetched, _, isRead⟩ | ⟨_, later, isRead⟩
        · rw [isRead]
          exact kept left source attempt response List.mem_cons_self fetched leftHolds
        · rw [isRead]
          exact ih (fun store other attempt response listed =>
            kept store other attempt response (List.mem_cons_of_mem _ listed)) leftHolds

theorem read_accepts {response : Response} {checker : Checker}
    (given : (reader.read attempt store sources notes).1.found reader.content =
      some (response, checker)) : reader.accept response = .ok checker := by
  induction sources generalizing attempt store notes with
  | nil => cases given
  | cons source sources ih =>
      rcases @read_cases _ _ _ _ _ _ _ reader store source sources attempt notes with
        ⟨_, _, _, accepted, isRead⟩ | ⟨_, _, ⟨_, _, _, accepted, isRead⟩ | ⟨_, _, isRead⟩⟩
      · rw [isRead] at given
        cases given
        exact accepted
      · rw [isRead] at given
        cases given
        exact accepted
      · rw [isRead] at given
        exact ih given

/-- A usable live entry is what its source gives, asked at any place. -/
def Current (reader : Reader Store Source Entry Response Checker Failure Note)
    (sources : List Source) (store : Store) : Prop :=
  ∀ source ∈ sources, ∀ entry checker, reader.live store source = some entry →
    reader.accept (reader.content entry) = .ok checker →
    ∀ attempt, reader.fetch attempt source = .ok (reader.content entry)

/-- Dropping an entry makes no other live. -/
def DropsOnly (reader : Reader Store Source Entry Response Checker Failure Note) : Prop :=
  ∀ store source other entry, reader.live (reader.drop store source) other = some entry →
    reader.live store other = some entry

theorem Current.tail (current : Current reader (source :: sources) store) :
    Current reader sources store :=
  fun other listed => current other (List.mem_cons_of_mem _ listed)

theorem Current.drop (drops : DropsOnly reader) (current : Current reader sources store)
    (source : Source) : Current reader sources (reader.drop store source) :=
  fun other listed entry checker found =>
    current other listed entry checker (drops store source other entry found)

/-- With current entries a read finds what asking the sources finds. -/
theorem read_found (drops : DropsOnly reader) {other : List Note}
    (current : Current reader sources store) :
    (reader.read attempt store sources notes).1.found reader.content =
      (reader.poll attempt sources other).found reader.content := by
  induction sources generalizing attempt store notes other with
  | nil => rfl
  | cons source sources ih =>
      rcases @read_cases _ _ _ _ _ _ _ reader store source sources attempt notes with
        ⟨entry, checker, live, accepted, isRead⟩ | ⟨left, isLeft, outcome⟩
      · have given := current source List.mem_cons_self entry checker live accepted attempt
        rw [isRead, poll_usable given accepted]
        rfl
      · rcases outcome with ⟨response, checker, fetched, accepted, isRead⟩ | ⟨skips, later, isRead⟩
        · rw [isRead, poll_usable fetched accepted]
        · have leftCurrent : Current reader sources left := by
            rcases isLeft with same | gone
            · rw [same]
              exact current.tail
            · rw [gone]
              exact current.tail.drop drops source
          have passed : ∃ notes, (reader.poll attempt (source :: sources) other :
              Reading Source Entry Response Checker Note) =
              reader.poll (attempt + 1) sources notes := poll_skips skips
          rcases passed with ⟨pollNotes, isPoll⟩
          rw [isRead, isPoll]
          exact ih leftCurrent

end Reads

section Calls

variable {Store Call Answer Value : Type}

/-- The answers to calls made one after the other, and the store they leave. -/
def serve (step : Store → Call → Answer × Store) : Store → List Call → List Answer × Store
  | store, [] => ([], store)
  | store, call :: calls =>
      let first := step store call
      let rest := serve step first.2 calls
      (first.1 :: rest.1, rest.2)

variable {step : Store → Call → Answer × Store} {store : Store} {calls : List Call}

theorem serve_keeps {holds : Store → Prop}
    (kept : ∀ call ∈ calls, ∀ store, holds store → holds (step store call).2)
    (start : holds store) : holds (serve step store calls).2 := by
  induction calls generalizing store with
  | nil => exact start
  | cons call calls ih =>
      exact ih (fun other listed => kept other (List.mem_cons_of_mem _ listed))
        (kept call List.mem_cons_self store start)

theorem serve_forall₂ {sound : Call → Answer → Prop}
    (each : ∀ store call, sound call (step store call).1) :
    List.Forall₂ sound calls (serve step store calls).1 := by
  induction calls generalizing store with
  | nil => exact .nil
  | cons call calls ih => exact .cons (each store call) ih

theorem serve_append {later : List Call} :
    (serve step store (calls ++ later)).2 = (serve step (serve step store calls).2 later).2 := by
  induction calls generalizing store with
  | nil => rfl
  | cons call calls ih => exact ih

theorem serve_at {earlier : List Call} {call : Call} {rest : List Call} :
    (serve step store (earlier ++ call :: rest)).1[earlier.length]? =
      some (step (serve step store earlier).2 call).1 := by
  induction earlier generalizing store with
  | nil => rfl
  | cons first earlier ih => exact ih

variable {agrees : Store → Call → Prop} {steady : Call → Call → Prop} {later : Call}

/-- A call that agrees with the store agrees with what the calls before it leave, if each of
them leaves it in agreement. -/
theorem serve_after
    (after : ∀ store call later, steady call later → agrees store later →
      agrees (step store call).2 later)
    (earlier : ∀ call ∈ calls, steady call later) (start : agrees store later) :
    agrees (serve step store calls).2 later :=
  @serve_keeps _ _ _ step store calls (agrees · later)
    (fun call listed store before => after store call later (earlier call listed) before) start

end Calls

end Pkix.ReadThrough
