import Mathlib.Data.List.TakeWhile
import Mathlib.Data.Set.Function
import Pkix.Zlint.BatchRuns

/-! Linting a batch gives what linting its certificates one by one gives. -/

namespace Pkix.Zlint

open Pkix.Path TextLines Slots Walk
open StdText (utf8)

section Specification

/-- The program's verdicts on each certificate, and none on a malformed one. -/
abbrev Linter := Bytes → Option Verdicts

/-- A line of output that stands for some verdicts. -/
structure Prints (reader : JsonReader) (line : Text) (verdicts : Verdicts) : Prop where
  oneLine : '\n' ∉ line
  visible : trim line ≠ []
  read : parsePerCertJsonValue reader (trim line) = .ok verdicts

/-- A line for each certificate before the first malformed one, at which the program fails. -/
structure LintsInOrder (reader : JsonReader) (linter : Linter) (files : List Bytes)
    (output : Output) : Prop where
  printed : ∃ printed : List Text,
    List.Forall₂ (fun line der => ∃ verdicts, linter der = some verdicts ∧
      Prints reader line verdicts) printed (files.takeWhile fun der => (linter der).isSome) ∧
    output.stdout = utf8 (printed.flatMap fun line => line ++ ['\n'])
  success : (∀ der ∈ files, (linter der).isSome = true) → output.status.success = true
  malformed : (¬ ∀ der ∈ files, (linter der).isSome = true) → output.status.success = false ∧
    looksLikeMalformed (fromUtf8Lossy output.stderr) = true

/-- Files can be written, and every run lints what it is given. -/
structure World.Serves (world : World) (reader : JsonReader) (linter : Linter) : Prop where
  newTempDir : ∀ run, world.newTempDir run = .ok ()
  writeFile : ∀ run key der, world.writeFile run key der = .ok ()
  runSubprocess : ∀ run files, ∃ output, world.runSubprocess run files = .ok output ∧
    LintsInOrder reader linter files output

/-- The entries of known certificates hold their verdicts. -/
def Cache.Consistent (sha256 : Bytes → Digest) (linter : Linter) (known : Set Bytes)
    (cache : Cache) : Prop :=
  ∀ der ∈ known, ∀ verdicts, cache.get (sha256 der) = some verdicts → linter der = some verdicts

def Right (linter : Linter) (der : Bytes) (result : CertResult) : Prop :=
  match linter der with
  | some verdicts => result = .ok verdicts
  | none => ∃ detail, result = .error (.malformedDer detail)

end Specification

section Output

variable {reader : JsonReader} {linter : Linter} {files : List Bytes} {output : Output}

theorem parseLines_printed {printed : List Text} {ders : List Bytes} (lineno : Nat)
    (each : List.Forall₂ (fun line der => ∃ verdicts, linter der = some verdicts ∧
      Prints reader line verdicts) printed ders) :
    ∃ parsed, parseLines reader lineno (printed.map fun line => stripLineEnd (line ++ ['\n'])) =
        .ok parsed ∧
      List.Forall₂ (fun verdicts der => linter der = some verdicts) parsed ders := by
  induction each generalizing lineno with
  | nil => exact ⟨[], rfl, .nil⟩
  | cons here _ ih =>
      obtain ⟨verdicts, linted, prints⟩ := here
      obtain ⟨parsed, read, rest⟩ := ih (lineno + 1)
      refine ⟨verdicts :: parsed, ?_, .cons linted rest⟩
      rw [List.map_cons, parseLines, trim_line, if_neg (List.isEmpty_iff.not.mpr prints.visible),
        prints.read, read]
      rfl

/-- The lines are read back as the verdicts on the certificates that they were printed for. -/
theorem parse_lintsInOrder (lints : LintsInOrder reader linter files output) :
    ∃ parsed, parsePerCertNdjson reader output.stdout = .ok parsed ∧
      List.Forall₂ (fun verdicts der => linter der = some verdicts) parsed
        (files.takeWhile fun der => (linter der).isSome) := by
  obtain ⟨printed, each, stdout⟩ := lints.printed
  have whole : ∀ line ∈ printed, '\n' ∉ line := by
    intro line member
    obtain ⟨der, _, verdicts, _, prints⟩ := exists_result each line member
    exact prints.oneLine
  obtain ⟨parsed, read, relates⟩ := parseLines_printed 0 each
  refine ⟨parsed, ?_, relates⟩
  unfold parsePerCertNdjson
  rw [stdout, fromUtf8_utf8]
  dsimp only
  rw [lines, splitInclusive_lines whole, List.map_map]
  exact read

end Output

section Files

variable {sha256 : Bytes → Digest} {world : World} {reader : JsonReader} {linter : Linter}
variable {known : Set Bytes} {certs : List Bytes} {batch : Batch}

/-- The certificate at a position. -/
def certAt (certs : List Bytes) (index : Nat) : Bytes := certs[index]?.getD []

theorem getElem?_certAt {index : Nat} (within : index < certs.length) :
    certs[index]? = some (certAt certs index) := by
  rw [certAt, List.getElem?_eq_getElem within]
  rfl

theorem certAt_mem {index : Nat} (within : index < certs.length) : certAt certs index ∈ certs :=
  List.mem_of_getElem? (getElem?_certAt within)

theorem keyAt {index : Nat} (within : index < certs.length) :
    (certs.map sha256)[index]? = some (sha256 (certAt certs index)) := by
  rw [List.getElem?_map, getElem?_certAt within]
  rfl

/-- Every file that is there holds the certificate that it is named after. -/
def Named (sha256 : Bytes → Digest) (known : Set Bytes) (scratch : Scratch) : Prop :=
  ∀ der ∈ known, ∀ content, scratch.lookup (sha256 der) = some content → content = der

theorem writeDer_serves (serves : world.Serves reader linter) (injective : Set.InjOn sha256 known)
    (covered : ∀ der ∈ certs, der ∈ known) (run : Nat) {slots : List Nat} {scratch : Scratch}
    (within : ∀ index ∈ slots, index < certs.length) (named : Named sha256 known scratch) :
    ∃ written, writeDer world certs (certs.map sha256) run slots scratch =
        .ok (slots.map fun index => sha256 (certAt certs index), written) ∧
      (∀ der ∈ known, (scratch.lookup (sha256 der)).isSome ∨
        der ∈ slots.map (certAt certs) → written.lookup (sha256 der) = some der) := by
  induction slots generalizing scratch with
  | nil =>
      refine ⟨scratch, rfl, ?_⟩
      intro der member there
      obtain ⟨content, held⟩ := Option.isSome_iff_exists.mp (there.resolve_right List.not_mem_nil)
      rw [held, named der member content held]
  | cons index rest ih =>
      rw [List.forall_mem_cons] at within
      have present := covered _ (certAt_mem within.1)
      have stays : Named sha256 known
          (scratch.insert (sha256 (certAt certs index)) (certAt certs index)) := by
        intro der member content held
        by_cases same : sha256 der = sha256 (certAt certs index)
        · rw [same, AList.lookup_insert, Option.some.injEq] at held
          rw [← held]
          exact (injective member present same).symm
        · rw [AList.lookup_insert_ne same] at held
          exact named der member content held
      obtain ⟨written, done, holds⟩ := ih within.2 stays
      refine ⟨written, ?_, ?_⟩
      · rw [writeDer, getElem?_certAt within.1, keyAt within.1, List.map_cons]
        refine bind_ok.mpr ⟨_, rfl, bind_ok.mpr ⟨_, rfl, bind_ok.mpr ⟨(), ?_, ?_⟩⟩⟩
        · rw [serves.writeFile]
          rfl
        · exact bind_ok.mpr ⟨_, done, rfl⟩
      · intro der member there
        refine holds der member ?_
        by_cases same : sha256 der = sha256 (certAt certs index)
        · rw [same, AList.lookup_insert]
          exact .inl rfl
        · rw [AList.lookup_insert_ne same]
          refine there.imp_right fun listed => ?_
          rcases List.mem_cons.mp listed with here | later
          · exact absurd (congrArg sha256 here) same
          · exact later

/-- The program is given the pending certificates. -/
theorem prepareFiles_serves (serves : world.Serves reader linter)
    (injective : Set.InjOn sha256 known) (covered : ∀ der ∈ certs, der ∈ known)
    (within : ∀ index ∈ batch.pending, index < certs.length) :
    prepareFiles world certs (certs.map sha256) batch =
      .ok (batch.pending.map (certAt certs)) := by
  have empty : Named sha256 known ∅ := by
    intro der _ content held
    rw [AList.lookup_empty] at held
    cases held
  obtain ⟨written, done, holds⟩ :=
    writeDer_serves serves injective covered batch.invocations within empty
  have read : ∀ index ∈ batch.pending,
      written.lookup (sha256 (certAt certs index)) = some (certAt certs index) := by
    intro index member
    exact holds _ (covered _ (certAt_mem (within index member)))
      (.inr (List.mem_map_of_mem member))
  refine bind_ok.mpr ⟨(), ?_, bind_ok.mpr ⟨_, done, ?_⟩⟩
  · rw [serves.newTempDir]
    rfl
  · dsimp only
    rw [List.filterMap_map, ← List.filterMap_eq_map]
    exact congrArg Except.ok (List.filterMap_congr read)

end Files

section Settling

variable {sha256 : Bytes → Digest} {linter : Linter} {known : Set Bytes} {certs : List Bytes}
variable {batch after : Batch} {settled : List (Nat × CertResult)} {cache : Cache}

/-- The settled slots hold what linting their certificates alone gives. -/
def RightSoFar (linter : Linter) (certs : List Bytes) (batch : Batch) : Prop :=
  ∀ index < certs.length, index ∉ batch.pending → ∃ result,
    batch.results[index]? = some (some result) ∧ Right linter (certAt certs index) result

theorem Cache.Consistent.put {der : Bytes} {verdicts : Verdicts}
    (injective : Set.InjOn sha256 known) (member : der ∈ known) (linted : linter der = some verdicts)
    (consistent : cache.Consistent sha256 linter known) :
    (cache.put (sha256 der) verdicts).Consistent sha256 linter known := by
  unfold Cache.put
  split
  · exact consistent
  · rename_i healthy
    intro other present held got
    have before := consistent other present held
    unfold Cache.get at got before
    rw [if_neg healthy] at before
    dsimp only at got
    rw [if_neg healthy] at got
    by_cases same : sha256 other = sha256 der
    · rw [same, AList.lookup_insert, Option.some.injEq] at got
      rw [injective present member same, linted, got]
    · rw [AList.lookup_insert_ne same] at got
      exact before got

theorem right_ok {der : Bytes} {verdicts : Verdicts} (linted : linter der = some verdicts) :
    Right linter der (.ok verdicts) := by
  unfold Right
  rw [linted]

theorem right_malformed {der : Bytes} (malformed : linter der = none) (detail : String) :
    Right linter der (.error (.malformedDer detail)) := by
  unfold Right
  rw [malformed]
  exact ⟨detail, rfl⟩

theorem linted_of_right {der : Bytes} {verdicts : Verdicts} (right : Right linter der (.ok verdicts)) :
    linter der = some verdicts := by
  unfold Right at right
  split at right
  · rename_i linted
    rw [linted, Except.ok.inj right]
  · obtain ⟨_, impossible⟩ := right
    cases impossible

theorem Advanced.right (advanced : Advanced (certs.map sha256) batch after settled)
    (each : ∀ entry ∈ settled, Right linter (certAt certs entry.1) entry.2)
    (right : RightSoFar linter certs batch) : RightSoFar linter certs after := by
  intro index small absent
  by_cases here : index ∈ settled.map Prod.fst
  · obtain ⟨entry, member, same⟩ := List.mem_map.mp here
    rw [← same]
    exact ⟨entry.2, advanced.written entry member, each entry member⟩
  · rw [advanced.kept index here]
    refine right index small ?_
    rw [advanced.pending]
    exact List.not_mem_append here absent

theorem Advanced.consistent (advanced : Advanced (certs.map sha256) batch after settled)
    (within : ∀ index ∈ batch.pending, index < certs.length)
    (injective : Set.InjOn sha256 known) (covered : ∀ der ∈ certs, der ∈ known)
    (each : ∀ entry ∈ settled, Right linter (certAt certs entry.1) entry.2)
    (consistent : batch.cache.Consistent sha256 linter known) :
    after.cache.Consistent sha256 linter known := by
  refine advanced.cached _ consistent ?_
  intro entry member verdicts settledOk key keyed cache held
  have small : entry.1 < certs.length := by
    refine within entry.1 ?_
    rw [advanced.pending]
    exact List.mem_append_left _ (List.mem_map_of_mem member)
  rw [keyAt small, Option.some.injEq] at keyed
  rw [← keyed]
  have right := each entry member
  rw [settledOk] at right
  exact held.put injective (covered _ (certAt_mem small)) (linted_of_right right)

end Settling

section Single

variable {reader : JsonReader} {sha256 : Bytes → Digest} {world : World} {linter : Linter}
variable {known : Set Bytes} {cache : Cache} {der : Bytes} {output : Output}

theorem parse_single {verdicts : Verdicts} (lints : LintsInOrder reader linter [der] output)
    (linted : linter der = some verdicts) :
    parsePerCertOutput reader output.stdout = .ok verdicts := by
  obtain ⟨printed, each, stdout⟩ := lints.printed
  have good : (linter der).isSome = true := by rw [linted]; rfl
  rw [List.takeWhile_cons, if_pos good, List.takeWhile_nil] at each
  cases each with
  | cons here rest =>
      cases rest
      obtain ⟨verdicts', linted', prints⟩ := here
      rw [linted, Option.some.injEq] at linted'
      unfold parsePerCertOutput
      rw [stdout, fromUtf8_utf8, List.flatMap_singleton]
      dsimp only
      rw [trim_concat (by decide), prints.read, linted']

theorem acceptSingle_right (injective : Set.InjOn sha256 known) (member : der ∈ known)
    (consistent : cache.Consistent sha256 linter known)
    (lints : LintsInOrder reader linter [der] output) : ∃ result, Right linter der result ∧
      (acceptSingle reader cache (sha256 der) output).1 = result.mapError .cert ∧
      (acceptSingle reader cache (sha256 der) output).2.Consistent sha256 linter known := by
  unfold acceptSingle
  cases linted : linter der with
  | none =>
      have stopped : ¬ ∀ other ∈ [der], (linter other).isSome = true := by
        intro all
        have good := all der List.mem_cons_self
        rw [linted] at good
        cases good
      obtain ⟨failure, message⟩ := lints.malformed stopped
      rw [failure, Bool.not_false, if_pos rfl]
      have malformed : classifyZlintCertError output.stderr =
          .malformedDer (String.ofList (fromUtf8Lossy output.stderr)) := if_pos message
      rw [malformed]
      exact ⟨_, right_malformed linted _, rfl, consistent⟩
  | some verdicts =>
      have success := lints.success (List.forall_mem_singleton.mpr (by rw [linted]; rfl))
      rw [success, Bool.not_true, if_neg (by decide), parse_single lints linted]
      exact ⟨.ok verdicts, right_ok linted, rfl, consistent.put injective member linted⟩

/-- A single call gives the right result, and leaves a consistent cache. -/
theorem runOnCert_right (serves : world.Serves reader linter) (injective : Set.InjOn sha256 known)
    (member : der ∈ known) (consistent : cache.Consistent sha256 linter known) (run : Nat) :
    ∃ result, Right linter der result ∧
      (runOnCert reader sha256 world cache run der).1 = result.mapError .cert ∧
      (runOnCert reader sha256 world cache run der).2.Consistent sha256 linter known := by
  unfold runOnCert
  dsimp only
  split
  · rename_i hit held
    exact ⟨.ok hit, right_ok (consistent der member hit held), rfl, consistent⟩
  · obtain ⟨output, ran, lints⟩ := serves.runSubprocess run [der]
    have reached : (do
        world.newTempDir run
        world.writeFile run (sha256 der) der
        world.runSubprocess run [der]) = Except.ok output := by
      rw [serves.newTempDir, serves.writeFile, ran]
      rfl
    rw [reached]
    exact acceptSingle_right injective member consistent lints

end Single

section Exactness

variable {reader : JsonReader} {sha256 : Bytes → Digest} {world : World} {linter : Linter}
variable {known : Set Bytes} {certs : List Bytes} {batch : Batch}

/-- A list is cut before its first item without the property. -/
theorem takeWhile_cases {α : Type} (holds : α → Bool) (items : List α) :
    (∀ item ∈ items, holds item = true) ∨ ∃ front failing rest, items = front ++ failing :: rest ∧
      items.takeWhile holds = front ∧ holds failing = false := by
  induction items with
  | nil => exact .inl (List.forall_mem_nil _)
  | cons item items ih =>
      cases here : holds item with
      | false =>
          exact .inr ⟨[], item, items, rfl, List.takeWhile_cons_of_neg (by simp [here]), here⟩
      | true =>
          rcases ih with all | ⟨front, failing, rest, split, taken, last⟩
          · exact .inl (List.forall_mem_cons.mpr ⟨here, all⟩)
          · refine .inr ⟨item :: front, failing, rest, by rw [split, List.cons_append], ?_, last⟩
            rw [List.takeWhile_cons_of_pos here, taken]

def malformedPending (linter : Linter) (certs : List Bytes) (pending : List Nat) : Nat :=
  pending.countP fun index => (linter (certAt certs index)).isNone

theorem right_zip {slots : List Nat} {parsed : List Verdicts}
    (relates : List.Forall₂ (fun verdicts der => linter der = some verdicts) parsed
      (slots.map (certAt certs))) :
    ∀ entry ∈ slots.zip (parsed.map (.ok : Verdicts → CertResult)),
      Right linter (certAt certs entry.1) entry.2 := by
  intro entry member
  rw [← zip_ok] at member
  obtain ⟨pair, present, same⟩ := List.mem_map.mp member
  have linted := (List.forall₂_iff_zip.mp (List.forall₂_map_right_iff.mp relates).flip).2 present
  rw [← same]
  exact right_ok linted

variable {output : Output} {keys : List Digest}

/-- Without a malformed certificate all that is pending is settled. -/
theorem acceptRun_all (filling : Filling certs.length batch.pending batch.results)
    (keyed : keys.length = certs.length)
    (lints : LintsInOrder reader linter (batch.pending.map (certAt certs)) output)
    (all : ∀ index ∈ batch.pending, (linter (certAt certs index)).isSome = true) :
    ∃ after settled, acceptRun reader keys batch output = (.ok (), after) ∧
      Advanced keys batch after settled ∧
      (∀ entry ∈ settled, Right linter (certAt certs entry.1) entry.2) ∧ after.pending = [] := by
  obtain ⟨parsed, read, relates⟩ := parse_lintsInOrder lints
  have each : ∀ der ∈ batch.pending.map (certAt certs), (linter der).isSome = true :=
    List.forall_mem_map.mpr all
  rw [List.takeWhile_eq_self_iff.mpr each] at relates
  have length := relates.length_eq
  rw [List.length_map] at length
  obtain ⟨after, accepted, none, advanced⟩ := acceptOutput_ok filling keyed length
  refine ⟨after, _, ?_, advanced, right_zip relates, none⟩
  unfold acceptRun
  rw [read]
  dsimp only
  rw [if_pos (lints.success each), accepted]

/-- The first malformed certificate is settled with those in front of it. -/
theorem acceptRun_front {front rest : List Nat} {failing : Nat}
    (filling : Filling certs.length batch.pending batch.results) (keyed : keys.length = certs.length)
    (lints : LintsInOrder reader linter (batch.pending.map (certAt certs)) output)
    (split : batch.pending = front ++ failing :: rest)
    (taken : batch.pending.takeWhile (fun index => (linter (certAt certs index)).isSome) = front)
    (last : linter (certAt certs failing) = none) :
    ∃ after settled, acceptRun reader keys batch output = (.ok (), after) ∧
      Advanced keys batch after settled ∧
      (∀ entry ∈ settled, Right linter (certAt certs entry.1) entry.2) ∧ after.pending = rest := by
  obtain ⟨parsed, read, relates⟩ := parse_lintsInOrder lints
  rw [List.takeWhile_map] at relates
  unfold Function.comp at relates
  rw [taken] at relates
  have length := relates.length_eq
  rw [List.length_map] at length
  have stopped : ¬ ∀ der ∈ batch.pending.map (certAt certs), (linter der).isSome = true := by
    intro all
    have good := all _ (List.mem_map_of_mem
      (split ▸ List.mem_append_right front List.mem_cons_self : failing ∈ batch.pending))
    rw [last] at good
    cases good
  obtain ⟨failure, message⟩ := lints.malformed stopped
  obtain ⟨after, accepted, remaining, advanced⟩ :=
    @acceptPrefix_ok keys batch certs.length parsed (fromUtf8Lossy output.stderr) front rest failing
      split filling keyed length
  refine ⟨after, _, ?_, advanced, ?_, remaining⟩
  · unfold acceptRun
    rw [read]
    dsimp only
    rw [if_neg (by rw [failure]; decide), message, Bool.not_true, if_neg (by decide), accepted]
  · intro entry member
    rcases List.mem_append.mp member with early | here
    · exact right_zip relates entry early
    · rw [List.mem_singleton.mp here]
      exact right_malformed last _

/-- A run settles what is pending as single runs would. It leaves nothing, or has met a malformed
certificate. -/
theorem runPendingBatch_serves (serves : world.Serves reader linter)
    (injective : Set.InjOn sha256 known) (covered : ∀ der ∈ certs, der ∈ known)
    (filling : Filling certs.length batch.pending batch.results) : ∃ after settled,
      runPendingBatch reader world certs (certs.map sha256) batch = (.ok (), after) ∧
      Advanced (certs.map sha256) { batch with invocations := batch.invocations + 1 } after settled ∧
      (∀ entry ∈ settled, Right linter (certAt certs entry.1) entry.2) ∧
      (after.pending = [] ∨
        malformedPending linter certs after.pending < malformedPending linter certs batch.pending) := by
  have keyed : (certs.map sha256).length = certs.length := List.length_map ..
  obtain ⟨output, ran, lints⟩ :=
    serves.runSubprocess batch.invocations (batch.pending.map (certAt certs))
  unfold runPendingBatch
  rw [prepareFiles_serves serves injective covered filling.within]
  dsimp only
  rw [ran]
  dsimp only
  rcases takeWhile_cases (fun index => (linter (certAt certs index)).isSome) batch.pending with
    all | ⟨front, failing, rest, split, taken, last⟩
  · obtain ⟨after, settled, accepted, advanced, each, none⟩ :=
      @acceptRun_all reader linter certs { batch with invocations := batch.invocations + 1 } output
        (certs.map sha256) filling keyed lints all
    exact ⟨after, settled, accepted, advanced, each, .inl none⟩
  · have malformed := Option.isSome_eq_false_iff.mp last
    obtain ⟨after, settled, accepted, advanced, each, remaining⟩ :=
      @acceptRun_front reader linter certs { batch with invocations := batch.invocations + 1 } output
        (certs.map sha256) front rest failing filling keyed lints split taken
        (Option.isNone_iff_eq_none.mp malformed)
    refine ⟨after, settled, accepted, advanced, each, .inr ?_⟩
    unfold malformedPending
    rw [remaining, split, List.countP_append, List.countP_cons, if_pos malformed]
    omega

/-- Every run but the last is paid for by a malformed certificate. -/
theorem runBatches_serves {bound budget : Nat} (serves : world.Serves reader linter)
    (injective : Set.InjOn sha256 known) (covered : ∀ der ∈ certs, der ∈ known)
    (filling : Filling certs.length batch.pending batch.results)
    (right : RightSoFar linter certs batch)
    (consistent : batch.cache.Consistent sha256 linter known)
    (enough : batch.pending.length ≤ bound)
    (paid : batch.invocations + malformedPending linter certs batch.pending ≤ budget) :
    ∃ after, runBatches reader world certs (certs.map sha256) bound batch = (.ok (), after) ∧
      after.pending = [] ∧ RightSoFar linter certs after ∧
      after.cache.Consistent sha256 linter known ∧ after.invocations ≤ budget + 1 := by
  induction bound generalizing batch with
  | zero =>
      have none := List.length_eq_zero_iff.mp (Nat.le_zero.mp enough)
      rw [runBatches_done none]
      exact ⟨batch, rfl, none, right, consistent, by omega⟩
  | succ bound ih =>
      by_cases none : batch.pending = []
      · rw [runBatches_done none]
        exact ⟨batch, rfl, none, right, consistent, by omega⟩
      obtain ⟨after, settled, ran, advanced, each, left⟩ :=
        runPendingBatch_serves serves injective covered filling
      have runs : after.invocations = batch.invocations + 1 := advanced.invocations
      have later := advanced.right each right
      have held := advanced.consistent filling.within injective covered each consistent
      unfold runBatches
      rw [if_neg (List.isEmpty_iff.not.mpr none), ran]
      dsimp only
      rcases left with done | fewer
      · rw [runBatches_done done]
        exact ⟨after, rfl, done, later, held, by omega⟩
      · have shorter : after.pending.length < batch.pending.length := by
          have split : batch.pending = settled.map Prod.fst ++ after.pending := advanced.pending
          cases settled with
          | nil =>
              have same : batch.pending = after.pending := split
              rw [same] at fewer
              exact absurd fewer (Nat.lt_irrefl _)
          | cons entry rest =>
              rw [split, List.length_append, List.length_map, List.length_cons]
              omega
        exact ih (advanced.filling filling) later held (by omega) (by omega)

end Exactness

section Start

variable {sha256 : Bytes → Digest} {certs : List Bytes} {cache : Cache} {linter : Linter}

theorem mem_pending {index : Nat} : index ∈ (startBatch sha256 certs cache).pending ↔
    ∃ der, certs[index]? = some der ∧ cache.get (sha256 der) = none := by
  unfold startBatch
  constructor
  · intro member
    obtain ⟨entry, kept, same⟩ := List.mem_map.mp member
    obtain ⟨present, missing⟩ := List.mem_filter.mp kept
    exact ⟨entry.1, same ▸ List.mem_zipIdx_iff_getElem?.mp present, Option.isNone_iff_eq_none.mp missing⟩
  · intro there
    obtain ⟨der, present, missing⟩ := there
    refine List.mem_map.mpr ⟨(der, index), List.mem_filter.mpr ⟨?_, ?_⟩, rfl⟩
    · exact List.mem_zipIdx_iff_getElem?.mpr present
    · exact Option.isNone_iff_eq_none.mpr missing

theorem startBatch_cached {index : Nat} (small : index < certs.length)
    (absent : index ∉ (startBatch sha256 certs cache).pending) : ∃ verdicts,
      cache.get (sha256 (certAt certs index)) = some verdicts ∧
      (startBatch sha256 certs cache).results[index]? = some (some (.ok verdicts)) := by
  have present := getElem?_certAt small
  cases found : cache.get (sha256 (certAt certs index)) with
  | none => exact absurd (mem_pending.mpr ⟨_, present, found⟩) absent
  | some verdicts =>
      refine ⟨verdicts, rfl, ?_⟩
      unfold startBatch
      dsimp only
      rw [List.getElem?_map, present, Option.map_some, found]
      rfl

theorem startBatch_filling : Filling certs.length (startBatch sha256 certs cache).pending
    (startBatch sha256 certs cache).results where
  length := List.length_map ..
  within := by
    intro index member
    obtain ⟨der, present, _⟩ := mem_pending.mp member
    exact (List.getElem?_eq_some_iff.mp present).1
  distinct := by
    have positions : (certs.zipIdx.map Prod.snd).Nodup := by
      rw [List.zipIdx_map_snd]
      exact List.nodup_range'
    exact (List.filter_sublist.map Prod.snd).nodup positions
  filled := by
    intro index small absent
    obtain ⟨verdicts, _, held⟩ := startBatch_cached small absent
    exact ⟨_, held⟩

theorem startBatch_right {known : Set Bytes} (covered : ∀ der ∈ certs, der ∈ known)
    (consistent : cache.Consistent sha256 linter known) :
    RightSoFar linter certs (startBatch sha256 certs cache) := by
  intro index small absent
  obtain ⟨verdicts, found, held⟩ := startBatch_cached small absent
  exact ⟨_, held, right_ok (consistent _ (covered _ (certAt_mem small)) verdicts found)⟩

theorem countP_pending (holds : Nat → Bool) (holdsOf : Bytes → Bool)
    (agree : ∀ index < certs.length, holds index = holdsOf (certAt certs index)) :
    (startBatch sha256 certs cache).pending.countP holds =
      certs.countP fun der => (cache.get (sha256 der)).isNone && holdsOf der := by
  have same : ∀ entry ∈ certs.zipIdx,
      (((holds ∘ Prod.snd) entry && (cache.get (sha256 entry.1)).isNone) = true ↔
        (((fun der => (cache.get (sha256 der)).isNone && holdsOf der) ∘ Prod.fst) entry) = true) := by
    intro entry member
    have present := List.mem_zipIdx_iff_getElem?.mp member
    have small := (List.getElem?_eq_some_iff.mp present).1
    have der : certAt certs entry.2 = entry.1 := by rw [certAt, present, Option.getD_some]
    rw [Function.comp_apply, Function.comp_apply, agree entry.2 small, der, Bool.and_comm]
  unfold startBatch
  rw [List.countP_map, List.countP_filter, List.countP_congr same, ← List.countP_map,
    List.zipIdx_map_fst]

theorem runBatches_filling {reader : JsonReader} {world : World} {keys : List Digest} {bound : Nat}
    {batch after : Batch} (filling : Filling certs.length batch.pending batch.results)
    (keyed : keys.length = certs.length) (enough : batch.pending.length ≤ bound)
    (ran : runBatches reader world certs keys bound batch = (.ok (), after)) :
    Filling certs.length [] after.results := by
  rcases @runBatches_cases reader world certs keys batch bound filling keyed enough with
    ⟨⟨error, failed⟩, _⟩ | ⟨final, done, filled, _⟩
  · rw [ran] at failed
    cases failed
  · rw [ran] at done
    cases done
    exact filled

end Start

section Finish

variable {reader : JsonReader} {sha256 : Bytes → Digest} {world : World} {linter : Linter}
variable {certs : List Bytes} {cache : Cache} {after : Batch} {results : List CertResult}

theorem readOut (results : List CertResult) :
    (results.map some).mapM (orPanic .emptySlot) = .ok results :=
  mapM_ok_iff.mpr (List.forall₂_map_left_iff.mpr (List.forall₂_same.mpr fun _ _ => rfl))

theorem runOnCerts_done (more : certs ≠ [])
    (ran : runBatches reader world certs (certs.map sha256)
      (startBatch sha256 certs cache).pending.length (startBatch sha256 certs cache) = (.ok (), after))
    (filled : Filling certs.length [] after.results) : ∃ results,
      after.results = results.map some ∧
      runOnCerts reader sha256 world certs cache = ⟨.ok results, after.cache, after.invocations⟩ := by
  obtain ⟨results, read⟩ := filled.all
  refine ⟨results, read, ?_⟩
  unfold runOnCerts
  rw [if_neg (List.isEmpty_iff.not.mpr more)]
  dsimp only
  rw [ran]
  dsimp only
  rw [read, readOut]

theorem runOnCerts_failed {failure : Failure} (more : certs ≠ [])
    (failed : (runBatches reader world certs (certs.map sha256)
      (startBatch sha256 certs cache).pending.length (startBatch sha256 certs cache)).1 =
        .error failure) :
    runOnCerts reader sha256 world certs cache = ⟨.error failure,
      (runBatches reader world certs (certs.map sha256)
        (startBatch sha256 certs cache).pending.length (startBatch sha256 certs cache)).2.cache,
      (runBatches reader world certs (certs.map sha256)
        (startBatch sha256 certs cache).pending.length (startBatch sha256 certs cache)).2.invocations⟩
        := by
  unfold runOnCerts
  rw [if_neg (List.isEmpty_iff.not.mpr more)]
  dsimp only
  split
  · rename_i reached batch step
    rw [step] at failed
    rw [Except.error.inj failed, step]
  · rename_i batch step
    rw [step] at failed
    cases failed

theorem results_right (done : after.pending = []) (read : after.results = results.map some)
    (right : RightSoFar linter certs after) (filled : Filling certs.length [] after.results) :
    List.Forall₂ (Right linter) certs results := by
  have lengths : certs.length = results.length := by
    rw [← filled.length, read, List.length_map]
  refine List.forall₂_iff_get.mpr ⟨lengths, ?_⟩
  intro index small inside
  obtain ⟨result, held, judged⟩ := right index small (done ▸ List.not_mem_nil)
  rw [read, List.getElem?_map, List.getElem?_eq_getElem inside, Option.map_some,
    Option.some.injEq, Option.some.injEq] at held
  rw [certAt, List.getElem?_eq_getElem small] at judged
  rw [List.get_eq_getElem, List.get_eq_getElem, held]
  exact judged

end Finish

/-- With a program that lints in order, a batch gets the results that its certificates get one by
one, in at most one run more than there are malformed ones to find; and whatever the program does,
the call ends within a run for each certificate to lint, and without a panic. -/
theorem runOnCerts_lintsEach (reader : JsonReader) (sha256 : Bytes → Digest) (world : World)
    (certs : List Bytes) (cache : Cache) :
    (∀ (linter : Linter) (known : Set Bytes), Set.InjOn sha256 known →
      (∀ der ∈ certs, der ∈ known) → cache.Consistent sha256 linter known →
      world.Serves reader linter → ∃ results,
        (runOnCerts reader sha256 world certs cache).outcome = .ok results ∧
        List.Forall₂ (Right linter) certs results ∧
        (runOnCerts reader sha256 world certs cache).invocations ≤
          (certs.countP fun der => (cache.get (sha256 der)).isNone && (linter der).isNone) + 1 ∧
        (runOnCerts reader sha256 world certs cache).cache.Consistent sha256 linter known) ∧
    ((∃ results, (runOnCerts reader sha256 world certs cache).outcome = .ok results) ∨
      ∃ error, (runOnCerts reader sha256 world certs cache).outcome = .error (.bridge error)) ∧
    (runOnCerts reader sha256 world certs cache).invocations ≤
      certs.countP fun der => (cache.get (sha256 der)).isNone := by
  by_cases none : certs = []
  · have idle : runOnCerts reader sha256 world certs cache = ⟨.ok [], cache, 0⟩ :=
      if_pos (List.isEmpty_iff.mpr none)
    rw [idle]
    refine ⟨?_, .inl ⟨[], rfl⟩, Nat.zero_le _⟩
    intro linter known _ _ consistent _
    exact ⟨[], rfl, none ▸ .nil, Nat.zero_le _, consistent⟩
  have keyed : (certs.map sha256).length = certs.length := List.length_map ..
  have filling := @startBatch_filling sha256 certs cache
  have uncached : (startBatch sha256 certs cache).pending.length =
      certs.countP fun der => (cache.get (sha256 der)).isNone := by
    have count := @countP_pending sha256 certs cache (fun _ => true) (fun _ => true)
      (fun _ _ => rfl)
    simpa only [List.countP_true, Bool.and_true] using count
  refine ⟨?_, ?_⟩
  · intro linter known injective covered consistent serves
    obtain ⟨after, ran, done, right, held, runs⟩ := runBatches_serves serves injective covered
      filling (startBatch_right covered consistent) consistent (Nat.le_refl _) (Nat.le_refl _)
    have filled := runBatches_filling filling keyed (Nat.le_refl _) ran
    obtain ⟨results, read, outcome⟩ := runOnCerts_done none ran filled
    have malformed := @countP_pending sha256 certs cache
      (fun index => (linter (certAt certs index)).isNone) (fun der => (linter der).isNone)
      (fun _ _ => rfl)
    rw [outcome]
    refine ⟨results, rfl, ?_, ?_, held⟩
    · exact results_right done read right filled
    · rw [← malformed]
      have start : (startBatch sha256 certs cache).invocations = 0 := rfl
      unfold malformedPending at runs
      dsimp only
      omega
  · have start : (startBatch sha256 certs cache).invocations = 0 := rfl
    rw [← uncached]
    rcases runBatches_cases filling keyed (Nat.le_refl _) with
      ⟨⟨error, failed⟩, runs⟩ | ⟨after, ran, filled, runs⟩
    · have outcome := runOnCerts_failed none failed
      rw [outcome]
      exact ⟨.inr ⟨error, rfl⟩, by dsimp only; omega⟩
    · obtain ⟨results, _, outcome⟩ := runOnCerts_done none ran filled
      rw [outcome]
      exact ⟨.inl ⟨results, rfl⟩, by dsimp only; omega⟩

namespace Concrete

def passLine : String := "\x7b\"e_serial\":\x7b\"result\":\"pass\"\x7d\x7d"

def reader : JsonReader where
  fromStr text :=
    if text = passLine.toList then
      .ok (.object [("e_serial", .object [("result", .string "pass")])])
    else .error "expected value at line 1 column 1"
  graphemeExtend _ := false
  printable _ := true

/-- The program takes one of the two certificates. -/
def linter : Linter := fun der => if der = [0x30] then some [("e_serial", .pass)] else none

def digestOf (der : Bytes) : Bytes :=
  let digests := [([0x30], "5feceb66ffc86f38d952786c6d696c79c2dbc239dd4e91b46729d73a27fb57e9"),
    ([0x31], "6b86b273ff34fce19d6b804eff5a3f5747ada4eaa22f1d49c01e52ddb7875b4b")]
  ((digests.lookup der).bind Lint.hexDecode).getD []

def sha256 (der : Bytes) : Digest :=
  if known : (digestOf der).length = 32 then ⟨digestOf der, known⟩
  else ⟨List.replicate 32 0xff, List.length_replicate⟩

def world : World where
  newTempDir _ := .ok ()
  writeFile _ _ _ := .ok ()
  runSubprocess _ files := .ok
    { status := if ∀ der ∈ files, (linter der).isSome = true then .code 0 else .code 1
      stdout := utf8 (((files.takeWhile fun der => (linter der).isSome).map
        fun _ => passLine.toList).flatMap fun line => line ++ ['\n'])
      stderr := utf8 "level=fatal msg=\"unable to parse input as any known type\"".toList }

theorem prints_passLine : Prints reader passLine.toList [("e_serial", .pass)] :=
  ⟨by decide +kernel, by decide +kernel, by decide +kernel⟩

theorem world_serves : world.Serves reader linter where
  newTempDir _ := rfl
  writeFile _ _ _ := rfl
  runSubprocess run files := by
    refine ⟨_, rfl, ⟨_, ?_, rfl⟩, ?_, ?_⟩
    · refine List.forall₂_map_left_iff.mpr (List.forall₂_same.mpr ?_)
      intro der member
      have taken := List.mem_takeWhile_imp member
      unfold linter at taken ⊢
      split
      · exact ⟨_, rfl, prints_passLine⟩
      · rename_i other
        rw [if_neg other] at taken
        cases taken
    · intro all
      dsimp only
      rw [if_pos all]
      rfl
    · intro stopped
      dsimp only
      rw [if_neg stopped]
      exact ⟨rfl, by decide +kernel⟩

theorem sha256_injective : Set.InjOn sha256 {der | der ∈ [[0x30], [0x31]]} := by
  have apart : ∀ der ∈ [[0x30], [0x31]], ∀ other ∈ [[0x30], [0x31]],
      sha256 der = sha256 other → der = other := by
    decide +kernel
  intro der member other member'
  exact apart der member other member'

theorem threeCerts_linted : ∃ results,
    (runOnCerts reader sha256 world [[0x30], [0x31], [0x30]] ⟨∅, false⟩).outcome = .ok results ∧
    List.Forall₂ (Right linter) [[0x30], [0x31], [0x30]] results ∧
    (runOnCerts reader sha256 world [[0x30], [0x31], [0x30]] ⟨∅, false⟩).invocations ≤
      ([[0x30], [0x31], [0x30]].countP fun der =>
        (Cache.get ⟨∅, false⟩ (sha256 der)).isNone && (linter der).isNone) + 1 ∧
    (runOnCerts reader sha256 world [[0x30], [0x31], [0x30]] ⟨∅, false⟩).cache.Consistent sha256
      linter {der | der ∈ [[0x30], [0x31]]} := by
  refine (runOnCerts_lintsEach reader sha256 world _ _).1 linter _ sha256_injective (by decide) ?_
    world_serves
  intro der _ verdicts held
  cases held

end Concrete

end Pkix.Zlint
