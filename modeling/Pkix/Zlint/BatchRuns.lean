import Mathlib.Data.List.Forall2
import Pkix.Lib.Walk
import Pkix.Zlint.Bridge

/-! The batch loop with any program behind it: it ends, and every slot is filled. -/

namespace Pkix.Zlint

open Pkix.Path TextLines Slots Walk

section Recording

variable {keys : List Digest} {batch after : Batch}

/-- What a run has settled: the results for the first pending certificates, of which the cache has
taken the verdicts. -/
structure Advanced (keys : List Digest) (batch after : Batch) (settled : List (Nat × CertResult)) :
    Prop where
  pending : batch.pending = settled.map Prod.fst ++ after.pending
  length : after.results.length = batch.results.length
  written : ∀ entry ∈ settled, after.results[entry.1]? = some (some entry.2)
  kept : ∀ index, index ∉ settled.map Prod.fst → after.results[index]? = batch.results[index]?
  invocations : after.invocations = batch.invocations
  cached : ∀ holds : Cache → Prop, holds batch.cache →
    (∀ entry ∈ settled, ∀ verdicts, entry.2 = .ok verdicts → ∀ key, keys[entry.1]? = some key →
      ∀ cache, holds cache → holds (cache.put key verdicts)) → holds after.cache

/-- One more certificate is settled, of which the cache takes nothing. -/
theorem Advanced.settle {settled : List (Nat × CertResult)} {failing : Nat} {rest : List Nat}
    {result : CertResult} {results : List (Option CertResult)}
    (advanced : Advanced keys batch after settled) (next : after.pending = failing :: rest)
    (apart : failing ∉ settled.map Prod.fst)
    (filled : fill after.results failing result = some results) :
    Advanced keys batch { after with results, pending := rest }
      (settled ++ [(failing, result)]) := by
  obtain ⟨length, here, elsewhere⟩ := fill_slot filled
  exact
    { pending := by
        rw [advanced.pending, next, List.map_append, List.append_assoc]
        rfl
      length := length.trans advanced.length
      written := by
        intro entry present
        rcases List.mem_append.mp present with early | last
        · have different : entry.1 ≠ failing := by
            intro same
            exact apart (same ▸ List.mem_map_of_mem early)
          exact (elsewhere _ different).trans (advanced.written entry early)
        · rw [List.mem_singleton.mp last]
          exact here
      kept := by
        intro index absent
        rw [List.map_append, List.mem_append, not_or, List.map_singleton,
          List.mem_singleton] at absent
        exact (elsewhere index absent.2).trans (advanced.kept index absent.1)
      invocations := advanced.invocations
      cached := by
        intro holds start puts
        exact advanced.cached holds start
          fun entry present => puts entry (List.mem_append_left _ present) }

theorem recordLine_some {entry : Nat × Verdicts} {key : Digest} {filled : List (Option CertResult)}
    (keyed : keys[entry.1]? = some key) (done : fill batch.results entry.1 (.ok entry.2) = some filled) :
    recordLine keys batch entry =
      some { batch with cache := batch.cache.put key entry.2, results := filled } := by
  unfold recordLine
  rw [keyed, done]
  rfl

/-- The loop over the lines writes their verdicts and remembers each under its key. -/
theorem recordLines_some {entries : List (Nat × Verdicts)} {filled : List (Option CertResult)}
    (keyed : ∀ entry ∈ entries, entry.1 < keys.length)
    (done : fillAll batch.results (entries.map fun entry => (entry.1, .ok entry.2)) = some filled) :
    ∃ recorded, recordLines keys batch entries = some recorded ∧ recorded.results = filled ∧
      recorded.pending = batch.pending ∧ recorded.invocations = batch.invocations ∧
      ∀ holds : Cache → Prop, holds batch.cache →
        (∀ entry ∈ entries, ∀ key, keys[entry.1]? = some key →
          ∀ cache, holds cache → holds (cache.put key entry.2)) → holds recorded.cache := by
  induction entries generalizing batch with
  | nil =>
      refine ⟨batch, rfl, Option.some.inj done, rfl, rfl, ?_⟩
      intro holds start _
      exact start
  | cons entry rest ih =>
      rw [List.forall_mem_cons] at keyed
      rw [List.map_cons, fillAll_cons, Option.bind_eq_some_iff] at done
      obtain ⟨next, first, later⟩ := done
      have key := List.getElem?_eq_getElem keyed.1
      have recorded := recordLine_some key first
      obtain ⟨final, finished, results, pending, invocations, cached⟩ :=
        @ih { batch with cache := batch.cache.put keys[entry.1] entry.2, results := next } keyed.2
          later
      refine ⟨final, ?_, results, pending, invocations, ?_⟩
      · unfold recordLines at finished ⊢
        rw [List.foldlM_cons, recorded]
        exact finished
      · intro holds start puts
        rw [List.forall_mem_cons] at puts
        exact cached holds (puts.1 _ key _ start) puts.2

end Recording

section Accepting

variable {keys : List Digest} {batch : Batch} {count : Nat} {lines : List Verdicts} {stderr : Text}

theorem zip_ok (slots : List Nat) (lines : List Verdicts) :
    ((slots.zip lines).map fun entry => (entry.1, (.ok entry.2 : CertResult))) =
      slots.zip (lines.map .ok) := by
  rw [List.zip_map_right]
  rfl

theorem fst_zip_ok {slots : List Nat} (each : lines.length = slots.length) :
    (slots.zip (lines.map (.ok : Verdicts → CertResult))).map Prod.fst = slots := by
  rw [List.map_fst_zip]
  rw [List.length_map, each]

/-- The lines for the first pending certificates are recorded without a fault. -/
theorem recordLines_front {front rest : List Nat} (split : batch.pending = front ++ rest)
    (filling : Filling count batch.pending batch.results) (keyed : keys.length = count)
    (each : lines.length = front.length) : ∃ recorded,
      recordLines keys batch (front.zip lines) = some recorded ∧ recorded.pending = batch.pending ∧
      Advanced keys batch { recorded with pending := rest } (front.zip (lines.map .ok)) := by
  have firsts := fst_zip_ok each
  have member : ∀ entry ∈ front.zip (lines.map (.ok : Verdicts → CertResult)),
      entry.1 ∈ batch.pending := by
    intro entry present
    rw [split]
    exact List.mem_append_left _ (List.of_mem_zip present).1
  have within : ∀ entry ∈ front.zip (lines.map (.ok : Verdicts → CertResult)),
      entry.1 < batch.results.length := by
    intro entry present
    rw [filling.length]
    exact filling.within _ (member entry present)
  have distinct : ((front.zip (lines.map (.ok : Verdicts → CertResult))).map Prod.fst).Nodup := by
    have whole := filling.distinct
    rw [split] at whole
    rw [firsts]
    exact (List.nodup_append.mp whole).1
  obtain ⟨filled, done, length, written, kept⟩ := exists_fillAll within distinct
  rw [← zip_ok] at done
  have inKeys : ∀ entry ∈ front.zip lines, entry.1 < keys.length := by
    intro entry present
    rw [keyed]
    refine filling.within _ ?_
    rw [split]
    exact List.mem_append_left _ (List.of_mem_zip present).1
  obtain ⟨recorded, finished, results, pending, invocations, cached⟩ := recordLines_some inKeys done
  subst results
  refine ⟨recorded, finished, pending, ?_⟩
  exact
    { pending := by rw [firsts, split]
      length := length
      written := written
      kept := kept
      invocations := invocations
      cached := by
        intro holds start puts
        refine cached holds start ?_
        intro entry present
        have listed : (entry.1, (.ok entry.2 : CertResult)) ∈ front.zip (lines.map .ok) := by
          rw [← zip_ok]
          exact List.mem_map_of_mem present
        exact puts _ listed entry.2 rfl }

theorem acceptOutput_ok (filling : Filling count batch.pending batch.results)
    (keyed : keys.length = count) (each : lines.length = batch.pending.length) : ∃ after,
      acceptOutput keys batch lines = (.ok (), after) ∧ after.pending = [] ∧
      Advanced keys batch after (batch.pending.zip (lines.map .ok)) := by
  obtain ⟨recorded, finished, _, advanced⟩ :=
    recordLines_front (List.append_nil batch.pending).symm filling keyed each
  refine ⟨_, ?_, rfl, advanced⟩
  unfold acceptOutput
  rw [if_neg (not_not.mpr each), finished]

theorem acceptPrefix_ok {front rest : List Nat} {failing : Nat}
    (split : batch.pending = front ++ failing :: rest)
    (filling : Filling count batch.pending batch.results) (keyed : keys.length = count)
    (each : lines.length = front.length) : ∃ after,
      acceptPrefix keys batch lines stderr = (.ok (), after) ∧ after.pending = rest ∧
      Advanced keys batch after (front.zip (lines.map .ok) ++
        [(failing, .error (.malformedDer (String.ofList stderr)))]) := by
  obtain ⟨recorded, finished, pending, advanced⟩ := recordLines_front split filling keyed each
  have within : failing < recorded.results.length := by
    rw [advanced.length, filling.length]
    exact filling.within failing (by rw [split]; exact List.mem_append_right _ List.mem_cons_self)
  have apart : failing ∉ (front.zip (lines.map (.ok : Verdicts → CertResult))).map Prod.fst := by
    have whole := filling.distinct
    rw [split] at whole
    rw [fst_zip_ok each]
    intro present
    exact (List.nodup_append.mp whole).2.2 failing present failing List.mem_cons_self rfl
  have taken : batch.pending.take lines.length = front := by
    rw [split, each, List.take_left]
  have next : recorded.pending[lines.length]? = some failing := by
    rw [pending, split, each, List.getElem?_append_right (Nat.le_refl _), Nat.sub_self]
    rfl
  have later : recorded.pending.drop (lines.length + 1) = rest := by
    rw [pending, split, each, ← List.drop_drop, List.drop_left]
    rfl
  have more : lines.length < batch.pending.length := by
    rw [split, List.length_append, List.length_cons]
    omega
  obtain ⟨results, filled⟩ : ∃ results, fill recorded.results failing
      (.error (.malformedDer (String.ofList stderr))) = some results := ⟨_, fill_some within⟩
  refine ⟨{ recorded with results, pending := rest }, ?_, rfl, advanced.settle rfl apart filled⟩
  unfold acceptPrefix
  rw [if_neg (Nat.not_lt.mpr (Nat.le_of_lt more)), taken, finished]
  dsimp only
  rw [if_neg (pending ▸ Nat.ne_of_lt more), next]
  dsimp only
  rw [filled, later]

end Accepting

section Steps

variable {reader : JsonReader} {sha256 : Bytes → Digest} {world : World}
variable {certs : List Bytes} {keys : List Digest} {batch after : Batch} {count : Nat}
variable {settled : List (Nat × CertResult)}

theorem Advanced.filling (advanced : Advanced keys batch after settled)
    (filling : Filling count batch.pending batch.results) :
    Filling count after.pending after.results := by
  rw [advanced.pending] at filling
  refine filling.advance advanced.length ?_ advanced.kept
  intro index member
  obtain ⟨entry, present, same⟩ := List.mem_map.mp member
  exact ⟨entry.2, same ▸ advanced.written entry present⟩

/-- The outcome is an error of the bridge, and not a panic. -/
def Bridged {α : Type} (outcome : Except Failure α) : Prop := ∃ error, outcome = .error (.bridge error)

theorem acceptPrefix_cases (filling : Filling count batch.pending batch.results)
    (keyed : keys.length = count) (lines : List Verdicts) (stderr : Text) :
    (Bridged (acceptPrefix keys batch lines stderr).1 ∧
      (acceptPrefix keys batch lines stderr).2.invocations = batch.invocations) ∨
      ∃ after settled, acceptPrefix keys batch lines stderr = (.ok (), after) ∧ settled ≠ [] ∧
        Advanced keys batch after settled := by
  rcases Nat.lt_trichotomy lines.length batch.pending.length with fewer | all | more
  · have split : batch.pending = batch.pending.take lines.length ++
        batch.pending[lines.length] :: batch.pending.drop (lines.length + 1) := by
      rw [← List.drop_eq_getElem_cons fewer, List.take_append_drop]
    obtain ⟨after, accepted, _, advanced⟩ := @acceptPrefix_ok keys batch count lines stderr _ _ _
      split filling keyed (List.length_take_of_le (Nat.le_of_lt fewer)).symm
    exact .inr ⟨after, _, accepted, List.append_ne_nil_of_right_ne_nil _ (List.cons_ne_nil _ _),
      advanced⟩
  · obtain ⟨recorded, finished, pending, advanced⟩ :=
      recordLines_front (List.append_nil batch.pending).symm filling keyed all
    have refused : acceptPrefix keys batch lines stderr = (.error (.bridge (.outputParseError
        ("zlint failed but every input produced a line; stderr: " ++ truncateForDisplay stderr))),
        recorded) := by
      unfold acceptPrefix
      rw [if_neg (Nat.not_lt.mpr (Nat.le_of_eq all)), List.take_of_length_le (Nat.le_of_eq all.symm),
        finished]
      dsimp only
      rw [if_pos (pending ▸ all)]
    rw [refused]
    exact .inl ⟨⟨_, rfl⟩, advanced.invocations⟩
  · unfold acceptPrefix
    rw [if_pos more]
    exact .inl ⟨⟨_, rfl⟩, rfl⟩

/-- Whatever the program has printed, the run settles something or fails. -/
theorem acceptRun_cases (filling : Filling count batch.pending batch.results)
    (keyed : keys.length = count) (more : batch.pending ≠ []) (output : Output) :
    (Bridged (acceptRun reader keys batch output).1 ∧
      (acceptRun reader keys batch output).2.invocations = batch.invocations) ∨
      ∃ after settled, acceptRun reader keys batch output = (.ok (), after) ∧ settled ≠ [] ∧
        Advanced keys batch after settled := by
  unfold acceptRun
  split
  · exact .inl ⟨⟨_, rfl⟩, rfl⟩
  · rename_i lines _
    split
    · by_cases each : lines.length = batch.pending.length
      · obtain ⟨after, accepted, pending, advanced⟩ := acceptOutput_ok filling keyed each
        refine .inr ⟨after, _, accepted, ?_, advanced⟩
        intro none
        have whole := advanced.pending
        rw [none, pending] at whole
        exact more whole
      · unfold acceptOutput
        rw [if_pos each]
        exact .inl ⟨⟨_, rfl⟩, rfl⟩
    · split
      · exact .inl ⟨⟨_, rfl⟩, rfl⟩
      · exact acceptPrefix_cases filling keyed lines _

theorem writeDer_error {run : Nat} {slots : List Nat} {scratch : Scratch} {failure : Failure}
    (within : ∀ index ∈ slots, index < certs.length) (keyed : keys.length = certs.length)
    (failed : writeDer world certs keys run slots scratch = .error failure) :
    ∃ error, failure = .bridge error := by
  induction slots generalizing scratch with
  | nil => cases failed
  | cons index rest ih =>
      rw [List.forall_mem_cons] at within
      rw [writeDer, List.getElem?_eq_getElem within.1,
        List.getElem?_eq_getElem (keyed ▸ within.1)] at failed
      dsimp only [orPanic] at failed
      rcases bind_error.mp failed with impossible | ⟨_, _, failed⟩
      · cases impossible
      rcases bind_error.mp failed with impossible | ⟨_, _, failed⟩
      · cases impossible
      rcases bind_error.mp failed with unwritten | ⟨_, _, failed⟩
      · unfold bridged at unwritten
        split at unwritten
        · cases unwritten
        · exact ⟨_, (Except.error.inj unwritten).symm⟩
      rcases bind_error.mp failed with later | ⟨_, _, failed⟩
      · exact ih within.2 later
      · cases failed

theorem prepareFiles_error {failure : Failure}
    (within : ∀ index ∈ batch.pending, index < certs.length) (keyed : keys.length = certs.length)
    (failed : prepareFiles world certs keys batch = .error failure) :
    ∃ error, failure = .bridge error := by
  rcases bind_error.mp failed with uncreated | ⟨_, _, failed⟩
  · unfold bridged at uncreated
    split at uncreated
    · cases uncreated
    · exact ⟨_, (Except.error.inj uncreated).symm⟩
  rcases bind_error.mp failed with unwritten | ⟨_, _, failed⟩
  · exact writeDer_error within keyed unwritten
  · cases failed

theorem runPendingBatch_cases (filling : Filling certs.length batch.pending batch.results)
    (keyed : keys.length = certs.length) (more : batch.pending ≠ []) :
    (Bridged (runPendingBatch reader world certs keys batch).1 ∧
      (runPendingBatch reader world certs keys batch).2.invocations ≤ batch.invocations + 1) ∨
      ∃ after, runPendingBatch reader world certs keys batch = (.ok (), after) ∧
        Filling certs.length after.pending after.results ∧
        after.pending.length < batch.pending.length ∧
        after.invocations = batch.invocations + 1 := by
  unfold runPendingBatch
  split
  · rename_i failure unprepared
    obtain ⟨error, same⟩ := prepareFiles_error filling.within keyed unprepared
    rw [same]
    exact .inl ⟨⟨error, rfl⟩, Nat.le_succ _⟩
  · dsimp only
    split
    · exact .inl ⟨⟨_, rfl⟩, Nat.le_refl _⟩
    · rename_i output _
      rcases @acceptRun_cases reader keys { batch with invocations := batch.invocations + 1 }
        certs.length filling keyed more output with ⟨bridge, runs⟩ | ⟨after, settled, accepted,
          some, advanced⟩
      · exact .inl ⟨bridge, Nat.le_of_eq runs⟩
      · refine .inr ⟨after, accepted, advanced.filling filling, ?_, advanced.invocations⟩
        have split := congrArg List.length advanced.pending
        have positive := List.length_pos_of_ne_nil some
        rw [List.length_append, List.length_map] at split
        dsimp only at split
        omega

theorem runBatches_done {bound : Nat} (none : batch.pending = []) :
    runBatches reader world certs keys bound batch = (.ok (), batch) := by
  cases bound with
  | zero => exact if_pos (List.isEmpty_iff.mpr none)
  | succ bound => exact if_pos (List.isEmpty_iff.mpr none)

/-- The loop ends within as many runs as certificates are pending, and it fills every slot. -/
theorem runBatches_cases {bound : Nat} (filling : Filling certs.length batch.pending batch.results)
    (keyed : keys.length = certs.length) (enough : batch.pending.length ≤ bound) :
    (Bridged (runBatches reader world certs keys bound batch).1 ∧
      (runBatches reader world certs keys bound batch).2.invocations ≤
        batch.invocations + batch.pending.length) ∨
      ∃ after, runBatches reader world certs keys bound batch = (.ok (), after) ∧
        Filling certs.length [] after.results ∧
        after.invocations ≤ batch.invocations + batch.pending.length := by
  induction bound generalizing batch with
  | zero =>
      have none := List.length_eq_zero_iff.mp (Nat.le_zero.mp enough)
      rw [runBatches_done none]
      exact .inr ⟨batch, rfl, none ▸ filling, Nat.le_add_right _ _⟩
  | succ bound ih =>
      by_cases none : batch.pending = []
      · rw [runBatches_done none]
        exact .inr ⟨batch, rfl, none ▸ filling, Nat.le_add_right _ _⟩
      have positive := List.length_pos_of_ne_nil none
      have more : ¬ batch.pending.isEmpty = true := fun empty => none (List.isEmpty_iff.mp empty)
      unfold runBatches
      rw [if_neg more]
      dsimp only
      rcases @runPendingBatch_cases reader world certs keys batch filling keyed none with
        ⟨⟨error, failed⟩, runs⟩ | ⟨after, ran, filled, fewer, runs⟩
      · split
        · rename_i failure reached step
          rw [step] at failed runs
          rw [failed]
          exact .inl ⟨⟨error, rfl⟩, by dsimp only at runs ⊢; omega⟩
        · rename_i reached step
          rw [step] at failed
          cases failed
      · rw [ran]
        dsimp only
        rcases ih filled (by omega) with ⟨bridge, total⟩ | ⟨final, done, whole, total⟩
        · exact .inl ⟨bridge, by omega⟩
        · exact .inr ⟨final, done, whole, by omega⟩

end Steps

end Pkix.Zlint
