import Mathlib.Data.List.AList
import Pkix.Ct.LogTimestamps

/-! The log list of the vendor's JSON: which listings are imported, and with which window. -/

namespace Pkix.Ct

open Pkix.Path Walk

structure CtLog where
  logId : Digest
  keyDer : Bytes
  description : Text
  url : Text
  usableFromMs : Option UInt64
  retiredAtMs : Option UInt64
  deriving DecidableEq

/-- Every log stands under the hash of its key. -/
structure CtLogList (sha256 : Bytes → Digest) where
  logs : AList fun _ : Digest => CtLog
  keyed : ∀ id log, logs.lookup id = some log → log.logId = id ∧ sha256 log.keyDer = id

namespace CtLogList

variable {sha256 : Bytes → Digest}

def new : CtLogList sha256 where
  logs := ∅
  keyed := fun _ _ present => nomatch present

def get (list : CtLogList sha256) (logId : Digest) : Option CtLog := list.logs.lookup logId

theorem keyed_insert (list : CtLogList sha256) (log : CtLog)
    (expected : sha256 log.keyDer = log.logId) (id : Digest) (found : CtLog)
    (present : (list.logs.insert log.logId log).lookup id = some found) :
    found.logId = id ∧ sha256 found.keyDer = id := by
  by_cases same : id = log.logId
  · subst same
    rw [AList.lookup_insert, Option.some.injEq] at present
    subst present
    exact ⟨rfl, expected⟩
  · rw [AList.lookup_insert_ne same] at present
    exact list.keyed id found present

/-- A log already present is overwritten. -/
def insert (list : CtLogList sha256) (log : CtLog) : Result (CtLogList sha256) :=
  if expected : sha256 log.keyDer = log.logId then
    .ok ⟨list.logs.insert log.logId log, list.keyed_insert log expected⟩
  else .error .parseError

end CtLogList

def logWindowContains (log : CtLog) (timestampMs : UInt64) : Bool :=
  match log.usableFromMs with
  | none => false
  | some lo =>
      if timestampMs < lo then false
      else
        match log.retiredAtMs with
        | some hi => if hi ≤ timestampMs then false else true
        | none => true

section Schema

structure StateEntryJson where
  timestamp : Text

structure LogStateJson where
  pending : Option StateEntryJson
  qualified : Option StateEntryJson
  usable : Option StateEntryJson
  readonly : Option StateEntryJson
  retired : Option StateEntryJson
  rejected : Option StateEntryJson

def LogStateJson.isExcluded (state : LogStateJson) : Bool :=
  state.rejected.isSome || state.pending.isSome

structure LogJson where
  description : Text
  logId : Text
  key : Text
  url : Text
  state : Option LogStateJson

structure OperatorJson where
  logs : List LogJson

structure LogListJson where
  operators : List OperatorJson

end Schema

section Import

variable (sha256 : Bytes → Digest) (fromStr : Text → Option LogListJson)
  (decode : Text → Option Bytes)

def orParseError {α : Type} : Option α → Result α
  | some value => .ok value
  | none => .error .parseError

def tryIntoDigest (octets : Bytes) : Result Digest :=
  if length : octets.length = 32 then .ok ⟨octets, length⟩ else .error .parseError

/-- The timestamp of a state, where the log has that state. -/
def stateTime : Option StateEntryJson → Result (Option UInt64)
  | none => .ok none
  | some entry => do
      let ms ← parseRfc3339ToUnixMs entry.timestamp
      .ok (some ms)

def LogJson.isExcluded (log : LogJson) : Bool := log.state.any LogStateJson.isExcluded

def LogJson.read (log : LogJson) : Result CtLog := do
  let logIdBytes ← orParseError (decode log.logId)
  let logId ← tryIntoDigest logIdBytes
  let keyDer ← orParseError (decode log.key)
  let usableFromMs ← stateTime (log.state.bind LogStateJson.usable)
  let retiredAtMs ← stateTime (log.state.bind fun state => state.retired.or state.readonly)
  .ok { logId, keyDer, description := log.description, url := log.url, usableFromMs, retiredAtMs }

/-- One turn of the loop over the logs of an operator. -/
def importLog (list : CtLogList sha256) (log : LogJson) : Result (CtLogList sha256) :=
  if log.isExcluded then .ok list
  else do
    let entry ← log.read decode
    list.insert entry

def fromGoogleLogListJson (json : Text) : Result (CtLogList sha256) := do
  let parsed ← orParseError (fromStr json)
  parsed.operators.foldlM
    (fun list operator => operator.logs.foldlM (importLog sha256 decode) list) CtLogList.new

end Import

section Listings

variable {sha256 : Bytes → Digest} {fromStr : Text → Option LogListJson}
  {decode : Text → Option Bytes} {log : LogJson} {id : Digest}
  {list next final : CtLogList sha256}

/-- The log of the id is what this is a listing of. -/
def LogJson.Lists (decode : Text → Option Bytes) (log : LogJson) (id : Digest) : Prop :=
  decode log.logId = some id.val

/-- It is a listing that the importer does not skip. -/
def LogJson.Included (decode : Text → Option Bytes) (log : LogJson) (id : Digest) : Prop :=
  log.Lists decode id ∧ log.isExcluded = false

def LogListJson.logs (parsed : LogListJson) : List LogJson :=
  parsed.operators.flatMap OperatorJson.logs

theorem orParseError_ok {α : Type} {option : Option α} {value : α} :
    orParseError option = .ok value ↔ option = some value := by
  cases option with
  | none => simp [orParseError]
  | some found => simp [orParseError]

theorem read_ok {entry : CtLog} (read : log.read decode = .ok entry) :
    log.Lists decode entry.logId ∧
      stateTime (log.state.bind LogStateJson.usable) = .ok entry.usableFromMs ∧
      stateTime (log.state.bind fun state => state.retired.or state.readonly) =
        .ok entry.retiredAtMs := by
  unfold LogJson.read at read
  obtain ⟨logIdBytes, decoded, read⟩ := bind_ok.mp read
  obtain ⟨logId, sized, read⟩ := bind_ok.mp read
  obtain ⟨keyDer, _, read⟩ := bind_ok.mp read
  obtain ⟨usableFromMs, usable, read⟩ := bind_ok.mp read
  obtain ⟨retiredAtMs, retired, read⟩ := bind_ok.mp read
  unfold tryIntoDigest at sized
  split at sized
  · cases sized
    cases read
    exact ⟨orParseError_ok.mp decoded, usable, retired⟩
  · cases sized

theorem get_insert {entry : CtLog} (inserted : list.insert entry = .ok next) :
    next.get id = if id = entry.logId then some entry else list.get id := by
  unfold CtLogList.insert at inserted
  split at inserted
  · cases inserted
    split
    · rename_i same
      rw [same]
      exact AList.lookup_insert list.logs
    · rename_i other
      exact AList.lookup_insert_ne other
  · cases inserted

/-- One turn of the loop. -/
theorem get_importLog (imported : importLog sha256 decode list log = .ok next) :
    (¬ log.Included decode id ∧ next.get id = list.get id) ∨
      log.Included decode id ∧
        ∃ entry, log.read decode = .ok entry ∧ next.get id = some entry := by
  unfold importLog at imported
  split at imported
  · rename_i excluded
    cases imported
    refine .inl ⟨?_, rfl⟩
    intro listed
    exact Bool.noConfusion (excluded.symm.trans listed.2)
  · rename_i included
    obtain ⟨entry, read, inserted⟩ := bind_ok.mp imported
    rw [get_insert inserted]
    have listed := (read_ok read).1
    split
    · rename_i same
      subst same
      exact .inr ⟨⟨listed, Bool.eq_false_of_not_eq_true included⟩, entry, read, rfl⟩
    · rename_i other
      refine .inl ⟨?_, rfl⟩
      intro both
      have sameOctets := both.1.symm.trans listed
      exact other (Subtype.ext (Option.some.inj sameOctets))

/-- Of the listings of a log that are not excluded, the last one is imported. -/
theorem get_importLogs {logs : List LogJson}
    (imported : logs.foldlM (importLog sha256 decode) list = .ok final) :
    ((∀ log ∈ logs, ¬ log.Included decode id) ∧
      final.get id = list.get id) ∨
      ∃ before log after, logs = before ++ log :: after ∧
        log.Included decode id ∧
        (∀ later ∈ after, ¬ later.Included decode id) ∧
        ∃ entry, log.read decode = .ok entry ∧ final.get id = some entry := by
  induction logs generalizing list with
  | nil =>
      cases imported
      exact .inl ⟨List.forall_mem_nil _, rfl⟩
  | cons log rest ih =>
      rw [List.foldlM_cons] at imported
      obtain ⟨next, turn, remaining⟩ := bind_ok.mp imported
      rcases ih remaining with ⟨none, unchanged⟩ | ⟨before, last, after, split, listed, alone, found⟩
      · rcases get_importLog turn with ⟨unlisted, same⟩ | ⟨listed, entry, read, found⟩
        · refine .inl ⟨List.forall_mem_cons.mpr ⟨unlisted, none⟩, ?_⟩
          rw [unchanged, same]
        · refine .inr ⟨[], log, rest, rfl, listed, none, entry, read, ?_⟩
          rw [unchanged, found]
      · refine .inr ⟨log :: before, last, after, ?_, listed, alone, found⟩
        rw [split]
        rfl

theorem foldlM_operators {operators : List OperatorJson} :
    operators.foldlM
      (fun list operator => operator.logs.foldlM (importLog sha256 decode) list) list =
      (operators.flatMap OperatorJson.logs).foldlM (importLog sha256 decode) list := by
  induction operators generalizing list with
  | nil => rfl
  | cons operator rest ih =>
      rw [List.foldlM_cons, List.flatMap_cons, List.foldlM_append]
      exact congrArg _ (funext fun _ => ih)

theorem get_import {json : Text}
    (accepted : fromGoogleLogListJson sha256 fromStr decode json = .ok final) :
    ∃ parsed, fromStr json = some parsed ∧
      (((∀ log ∈ parsed.logs, ¬ log.Included decode id) ∧
        final.get id = none) ∨
      ∃ before log after, parsed.logs = before ++ log :: after ∧
        log.Included decode id ∧
        (∀ later ∈ after, ¬ later.Included decode id) ∧
        ∃ entry, log.read decode = .ok entry ∧ final.get id = some entry) := by
  obtain ⟨parsed, deserialized, imported⟩ := bind_ok.mp accepted
  rw [foldlM_operators] at imported
  exact ⟨parsed, orParseError_ok.mp deserialized, get_importLogs imported⟩

end Listings

section States

inductive LogState where
  | pending
  | qualified
  | usable
  | readonly
  | retired
  | rejected
  deriving DecidableEq

/-- The state object with one key. -/
def LogStateJson.only (state : LogState) (entry : StateEntryJson) : LogStateJson where
  pending := if state = .pending then some entry else none
  qualified := if state = .qualified then some entry else none
  usable := if state = .usable then some entry else none
  readonly := if state = .readonly then some entry else none
  retired := if state = .retired then some entry else none
  rejected := if state = .rejected then some entry else none

def LogJson.InState (log : LogJson) (state : LogState) : Prop :=
  ∃ entry, log.state = some (.only state entry)

def LogJson.Since (log : LogJson) (state : LogState) (instant : Int) : Prop :=
  ∃ entry, log.state = some (.only state entry) ∧ Denotes entry.timestamp instant

/-- The log is listed, and all its listings agree on what they say of it. -/
def LogListJson.Agrees (decode : Text → Option Bytes) (parsed : LogListJson) (id : Digest)
    (holds : LogJson → Prop) : Prop :=
  (∃ log ∈ parsed.logs, log.Lists decode id) ∧
    ∀ log ∈ parsed.logs, log.Lists decode id → holds log

def CtLogList.Passes {sha256 : Bytes → Digest} (list : CtLogList sha256) (id : Digest)
    (timestampMs : UInt64) : Prop :=
  ∃ log, list.get id = some log ∧ logWindowContains log timestampMs = true

/-- The acceptance window that the states are documented to have. -/
structure Documented {sha256 : Bytes → Digest} (decode : Text → Option Bytes)
    (parsed : LogListJson) (list : CtLogList sha256) (id : Digest) (timestampMs : UInt64) :
    Prop where
  usable : ∀ instant, parsed.Agrees decode id (fun log => log.Since .usable instant) →
    (list.Passes id timestampMs ↔ instant ≤ timestampMs.toNat)
  closed : ∀ state instant, state = .readonly ∨ state = .retired →
    parsed.Agrees decode id (fun log => log.Since state instant) →
    (list.Passes id timestampMs ↔ timestampMs.toNat < instant)
  excluded : ∀ state, state = .pending ∨ state = .rejected →
    parsed.Agrees decode id (fun log => log.InState state) → list.get id = none

variable {sha256 : Bytes → Digest} {fromStr : Text → Option LogListJson}
  {decode : Text → Option Bytes} {json : Text} {list : CtLogList sha256} {parsed : LogListJson}
  {id : Digest} {timestampMs : UInt64}

theorem LogJson.Since.inState {log : LogJson} {state : LogState} {instant : Int}
    (since : log.Since state instant) : log.InState state := by
  obtain ⟨entry, alone, _⟩ := since
  exact ⟨entry, alone⟩

theorem LogJson.InState.isExcluded_iff {log : LogJson} {state : LogState}
    (inState : log.InState state) : log.isExcluded = true ↔ state = .pending ∨ state = .rejected := by
  obtain ⟨entry, alone⟩ := inState
  rw [LogJson.isExcluded, alone]
  cases state <;> simp [LogStateJson.only, LogStateJson.isExcluded]

/-- A log in a state that is not excluded is imported, from one of its listings. -/
theorem exists_imported (deserialized : fromStr json = some parsed)
    (accepted : fromGoogleLogListJson sha256 fromStr decode json = .ok list)
    {state : LogState} (trusted : ¬ (state = .pending ∨ state = .rejected))
    (agreed : parsed.Agrees decode id (fun log => log.InState state)) :
    ∃ log ∈ parsed.logs, log.Lists decode id ∧
      ∃ entry, log.read decode = .ok entry ∧ list.get id = some entry := by
  obtain ⟨parsed', same, imported⟩ := @get_import _ _ _ id _ _ accepted
  rw [deserialized, Option.some.injEq] at same
  subst same
  rcases imported with ⟨none, _⟩ | ⟨before, log, after, split, included, _, read⟩
  · obtain ⟨log, present, listed⟩ := agreed.1
    have excluded : log.isExcluded = true := by
      by_contra other
      exact none log present ⟨listed, Bool.eq_false_of_not_eq_true other⟩
    exact absurd ((agreed.2 log present listed).isExcluded_iff.mp excluded) trusted
  · refine ⟨log, ?_, included.1, read⟩
    rw [split]
    exact List.mem_append_right _ List.mem_cons_self

theorem stateTime_since {state : Option StateEntryJson} {entry : StateEntryJson} {instant : Int}
    {time : Option UInt64} (present : state = some entry) (denotes : Denotes entry.timestamp instant)
    (read : stateTime state = .ok time) : ∃ ms : UInt64, time = some ms ∧ (ms.toNat : Int) = instant := by
  rw [present, stateTime] at read
  obtain ⟨ms, parsed, same⟩ := bind_ok.mp read
  cases same
  exact ⟨ms, rfl, toNat_of_denotes denotes parsed⟩

theorem stateTime_none {time : Option UInt64} (read : stateTime none = .ok time) : time = none := by
  cases read
  rfl

theorem passes_iff {log : CtLog} (found : list.get id = some log) :
    list.Passes id timestampMs ↔ logWindowContains log timestampMs = true := by
  constructor
  · intro passes
    obtain ⟨other, same, within⟩ := passes
    rw [found, Option.some.injEq] at same
    rw [same]
    exact within
  · intro within
    exact ⟨log, found, within⟩

/-- Without the end of the window, only its start counts. -/
theorem contains_unretired {log : CtLog} {start : UInt64} (usable : log.usableFromMs = some start)
    (unretired : log.retiredAtMs = none) :
    logWindowContains log timestampMs = true ↔ start.toNat ≤ timestampMs.toNat := by
  rw [logWindowContains, usable, unretired]
  dsimp only
  split
  · rename_i before
    rw [UInt64.lt_iff_toNat_lt] at before
    constructor
    · intro accepted
      cases accepted
    · intro later
      exact absurd later (Nat.not_le.mpr before)
  · rename_i later
    rw [UInt64.lt_iff_toNat_lt] at later
    exact ⟨fun _ => Nat.not_lt.mp later, fun _ => rfl⟩

/-- Without its start, nothing is in the window. -/
theorem contains_unusable {log : CtLog} (unusable : log.usableFromMs = none) :
    logWindowContains log timestampMs = false := by
  rw [logWindowContains, unusable]

theorem usable_passes_iff (deserialized : fromStr json = some parsed)
    (accepted : fromGoogleLogListJson sha256 fromStr decode json = .ok list) {instant : Int}
    (agreed : parsed.Agrees decode id (fun log => log.Since .usable instant)) :
    list.Passes id timestampMs ↔ instant ≤ timestampMs.toNat := by
  have trusted : ¬ (LogState.usable = .pending ∨ LogState.usable = .rejected) := by decide
  have inState : parsed.Agrees decode id (fun log => log.InState .usable) :=
    ⟨agreed.1, fun log present listed => (agreed.2 log present listed).inState⟩
  obtain ⟨log, present, listed, entry, read, found⟩ :=
    exists_imported deserialized accepted trusted inState
  obtain ⟨_, usable, retired⟩ := read_ok read
  obtain ⟨since, alone, denotes⟩ := agreed.2 log present listed
  rw [alone] at usable retired
  obtain ⟨ms, started, same⟩ := stateTime_since rfl denotes usable
  rw [passes_iff found, contains_unretired started (stateTime_none retired), ← same]
  exact Int.ofNat_le.symm

/-- A closed log has no start of its window. -/
theorem closed_not_passes (deserialized : fromStr json = some parsed)
    (accepted : fromGoogleLogListJson sha256 fromStr decode json = .ok list) {state : LogState}
    (closed : state = .readonly ∨ state = .retired)
    (agreed : parsed.Agrees decode id (fun log => log.InState state)) :
    ¬ list.Passes id timestampMs := by
  have trusted : ¬ (state = .pending ∨ state = .rejected) := by
    rcases closed with same | same <;> subst same <;> decide
  obtain ⟨log, present, listed, entry, read, found⟩ :=
    exists_imported deserialized accepted trusted agreed
  obtain ⟨_, usable, _⟩ := read_ok read
  obtain ⟨since, alone⟩ := agreed.2 log present listed
  rw [alone] at usable
  have unusable : entry.usableFromMs = none := by
    rcases closed with same | same <;> subst same <;> exact stateTime_none usable
  rw [passes_iff found, contains_unusable unusable]
  exact Bool.false_ne_true

theorem excluded_get (deserialized : fromStr json = some parsed)
    (accepted : fromGoogleLogListJson sha256 fromStr decode json = .ok list) {state : LogState}
    (excluded : state = .pending ∨ state = .rejected)
    (agreed : parsed.Agrees decode id (fun log => log.InState state)) : list.get id = none := by
  obtain ⟨parsed', same, imported⟩ := @get_import _ _ _ id _ _ accepted
  rw [deserialized, Option.some.injEq] at same
  subst same
  rcases imported with ⟨_, absent⟩ | ⟨before, log, after, split, included, _⟩
  · exact absent
  · have present : log ∈ parsed.logs := by
      rw [split]
      exact List.mem_append_right _ List.mem_cons_self
    have skipped := (agreed.2 log present included.1).isExcluded_iff.mpr excluded
    exact Bool.noConfusion (skipped.symm.trans included.2)

/-- The documented window is the one that is used, but for the logs that are closed: they lose
the time before as well. -/
theorem documented_iff (accepted : fromGoogleLogListJson sha256 fromStr decode json = .ok list)
    (deserialized : fromStr json = some parsed) :
    Documented decode parsed list id timestampMs ↔
      ¬ ∃ state instant, (state = .readonly ∨ state = .retired) ∧
        parsed.Agrees decode id (fun log => log.Since state instant) ∧
        timestampMs.toNat < instant := by
  constructor
  · intro documented early
    obtain ⟨state, instant, closed, agreed, before⟩ := early
    have passes := (documented.closed state instant closed agreed).mpr before
    refine closed_not_passes deserialized accepted closed ⟨agreed.1, ?_⟩ passes
    intro log present listed
    exact (agreed.2 log present listed).inState
  · intro condition
    refine ⟨fun instant => usable_passes_iff deserialized accepted, ?_,
      fun state => excluded_get deserialized accepted⟩
    intro state instant closed agreed
    have rejected : ¬ list.Passes id timestampMs := by
      refine closed_not_passes deserialized accepted closed ⟨agreed.1, ?_⟩
      intro log present listed
      exact (agreed.2 log present listed).inState
    constructor
    · intro passes
      exact absurd passes rejected
    · intro before
      exact absurd ⟨state, instant, closed, agreed, before⟩ condition

end States

namespace Concrete

/-- SHA-256 of the octets `key-retired`. -/
def retiredId : Digest :=
  ⟨[225, 243, 190, 47, 231, 86, 173, 131, 96, 120, 104, 66, 55, 35, 142, 166, 65, 185, 150, 95, 31,
    14, 102, 172, 106, 102, 144, 217, 50, 50, 126, 213], rfl⟩

def retiredKey : Bytes := [107, 101, 121, 45, 114, 101, 116, 105, 114, 101, 100]

def keyHash (octets : Bytes) : Digest :=
  if octets = retiredKey then retiredId else ⟨List.replicate 32 0xff, rfl⟩

def decodeBase64 (text : Text) : Option Bytes :=
  if text = "4fO+L+dWrYNgeGhCNyOOpkG5ll8fDmasamaQ2TIyftU=".toList then some retiredId.val
  else if text = "a2V5LXJldGlyZWQ=".toList then some retiredKey
  else none

def retiredLog : LogJson where
  description := "retired-log".toList
  logId := "4fO+L+dWrYNgeGhCNyOOpkG5ll8fDmasamaQ2TIyftU=".toList
  key := "a2V5LXJldGlyZWQ=".toList
  url := "https://example.com/retired-log/".toList
  state := some (.only .retired ⟨"2025-03-01T00:00:00Z".toList⟩)

/-- A list with one log, retired since the start of March 2025. -/
def retiredJson : Text :=
  ("\x7b\"operators\":[\x7b\"logs\":[\x7b\"description\":\"retired-log\"," ++
    "\"log_id\":\"4fO+L+dWrYNgeGhCNyOOpkG5ll8fDmasamaQ2TIyftU=\"," ++
    "\"key\":\"a2V5LXJldGlyZWQ=\",\"url\":\"https://example.com/retired-log/\"," ++
    "\"state\":\x7b\"retired\":\x7b\"timestamp\":\"2025-03-01T00:00:00Z\"\x7d\x7d\x7d]\x7d]\x7d").toList

def retiredParsed : LogListJson := ⟨[⟨[retiredLog]⟩]⟩

def fromStr (json : Text) : Option LogListJson :=
  if json = retiredJson then some retiredParsed else none

def retiredEntry : CtLog where
  logId := retiredId
  keyDer := retiredKey
  description := "retired-log".toList
  url := "https://example.com/retired-log/".toList
  usableFromMs := none
  retiredAtMs := some 1740787200000

theorem retiredJson_parsed : fromStr retiredJson = some retiredParsed := if_pos rfl

theorem retiredLog_read : retiredLog.read decodeBase64 = .ok retiredEntry := by decide

theorem retiredLog_imported :
    ∃ list, fromGoogleLogListJson keyHash fromStr decodeBase64 retiredJson = .ok list := by
  have expected : keyHash retiredEntry.keyDer = retiredEntry.logId := by decide
  have turn : importLog keyHash decodeBase64 .new retiredLog =
      .ok ⟨(∅ : AList fun _ : Digest => CtLog).insert retiredEntry.logId retiredEntry,
        CtLogList.keyed_insert .new retiredEntry expected⟩ := by
    rw [importLog, if_neg (by decide), retiredLog_read]
    exact bind_ok.mpr ⟨_, rfl, dif_pos expected⟩
  have parsed : orParseError (fromStr retiredJson) = .ok retiredParsed := by
    rw [retiredJson_parsed]
    rfl
  have imported : retiredParsed.logs.foldlM (importLog keyHash decodeBase64) .new = _ :=
    bind_ok.mpr ⟨_, turn, rfl⟩
  unfold fromGoogleLogListJson
  rw [parsed]
  exact ⟨_, foldlM_operators.trans imported⟩

theorem retiredLog_agrees : retiredParsed.Agrees decodeBase64 retiredId
    (fun log => log.Since .retired 1740787200000) := by
  have listed : decodeBase64 retiredLog.logId = some retiredId.val := by decide
  refine ⟨⟨retiredLog, List.mem_cons_self, listed⟩, ?_⟩
  intro log present _
  have only : log = retiredLog := List.mem_singleton.mp present
  subst only
  exact ⟨_, rfl, ⟨⟨2025, 3, 1⟩, 0, 0, 0⟩, [], by decide, by decide, by decide, .inl rfl, by decide,
    by decide⟩

/-- No timestamp passes for the retired log, not even the epoch itself. -/
theorem retiredLog_neverPasses :
    ∃ list, fromGoogleLogListJson keyHash fromStr decodeBase64 retiredJson = .ok list ∧
      ¬ Documented decodeBase64 retiredParsed list retiredId 0 := by
  obtain ⟨list, imported⟩ := retiredLog_imported
  refine ⟨list, imported, ?_⟩
  intro documented
  have passes := (documented.closed .retired _ (.inr rfl) retiredLog_agrees).mpr (by decide)
  refine closed_not_passes retiredJson_parsed imported (.inr rfl) ⟨retiredLog_agrees.1, ?_⟩ passes
  intro log present listed
  exact (retiredLog_agrees.2 log present listed).inState

theorem retiredLog_documented :
    ∃ list, fromGoogleLogListJson keyHash fromStr decodeBase64 retiredJson = .ok list ∧
      (Documented decodeBase64 retiredParsed list retiredId 0 ↔
        ¬ ∃ state instant, (state = .readonly ∨ state = .retired) ∧
          retiredParsed.Agrees decodeBase64 retiredId (fun log => log.Since state instant) ∧
          (0 : UInt64).toNat < instant) := by
  obtain ⟨list, imported⟩ := retiredLog_imported
  exact ⟨list, imported, documented_iff imported retiredJson_parsed⟩

end Concrete

end Pkix.Ct
