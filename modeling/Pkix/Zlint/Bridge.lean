import Mathlib.Data.List.AList
import Pkix.Lib.Slots
import Pkix.Lib.TextLines
import Pkix.Lint.OscalRisks

/-! The bridge to the zlint program: its verdict cache, what it reads of the program's output, and
the loop that lints a batch of certificates in as few runs as it can. -/

namespace Pkix.Zlint

open Pkix.Path TextLines Slots
open Lint (Value)

abbrev Digest := { octets : Bytes // octets.length = 32 }

inductive Verdict
  | notApplicable
  | pass
  | notice
  | warn
  | error
  | fatal
  deriving DecidableEq, Repr

/-- Check identifiers with their verdicts, in the order of the JSON object. -/
abbrev Verdicts := List (String × Verdict)

inductive BridgeError
  | binaryNotFound (path : String)
  | binaryNotExecutable (path : String)
  | subprocessFailed (exitCode : Option Int32) (stderr : String)
  | subprocessKilled (signal : Option Int32)
  | subprocessTimeout (timeoutNanos : Nat)
  | outputParseError (detail : String)
  deriving DecidableEq

inductive PerCertError
  | malformedDer (detail : String)
  | unsupportedCertType (detail : String)
  | other (detail : String)
  deriving DecidableEq

abbrev CertResult := Except PerCertError Verdicts

inductive ExitStatus
  | code (value : Int32)
  | signal (number : Int32)
  deriving DecidableEq

def ExitStatus.success : ExitStatus → Bool
  | code value => value == 0
  | signal _ => false

structure Output where
  status : ExitStatus
  stdout : Bytes
  stderr : Bytes

section Parsing

/-- What the crate calls of the JSON decoder, and Unicode's tables behind the debug form of text. -/
structure JsonReader where
  fromStr : Text → Except String Value
  graphemeExtend : Char → Bool
  printable : Char → Bool

variable (reader : JsonReader)

def escapeDebug (char : Char) : Text :=
  if char = '\x00' then ['\\', '0']
  else if char = '\t' then ['\\', 't']
  else if char = '\r' then ['\\', 'r']
  else if char = '\n' then ['\\', 'n']
  else if char = '\\' then ['\\', '\\']
  else if char = '"' then ['\\', '"']
  else if !reader.graphemeExtend char && reader.printable char then [char]
  else "\\u\x7b".toList ++ Nat.toDigits 16 char.toNat ++ "\x7d".toList

def debug (text : String) : String :=
  String.ofList ('"' :: text.toList.flatMap (escapeDebug reader) ++ ['"'])

def verdictFromStr (text : String) : Except String Verdict :=
  if text = "NA" ∨ text = "NE" then .ok .notApplicable
  else if text = "pass" then .ok .pass
  else if text = "notice" then .ok .notice
  else if text = "warn" then .ok .warn
  else if text = "error" then .ok .error
  else if text = "fatal" then .ok .fatal
  else .error ("unknown zlint verdict " ++ debug reader text ++
    "; expected NA / NE / pass / notice / warn / error / fatal")

def parseEntry (entry : String × Value) : Except String (String × Verdict) :=
  match (entry.2.asObject.bind fun fields => fields.lookup "result").bind Value.asStr with
  | none => .error ("entry " ++ debug reader entry.1 ++ " missing 'result' string")
  | some resultStr =>
      match verdictFromStr reader resultStr with
      | .error failure => .error ("entry " ++ debug reader entry.1 ++ ": " ++ failure)
      | .ok verdict => .ok (entry.1, verdict)

def parsePerCertJsonValue (text : Text) : Except String Verdicts :=
  match reader.fromStr text with
  | .error failure => .error ("malformed JSON: " ++ failure)
  | .ok value =>
      match value.asObject with
      | none => .error "expected JSON object at top level"
      | some fields => fields.mapM (parseEntry reader)

/-- The loop over the lines, with the number of the next one. -/
def parseLines : (lineno : Nat) → List Text → Except String (List Verdicts)
  | _, [] => .ok []
  | lineno, line :: rest =>
      if (trim line).isEmpty then parseLines (lineno + 1) rest
      else
        match parsePerCertJsonValue reader (trim line) with
        | .error failure => .error ("line " ++ (lineno + 1).repr ++ ": " ++ failure)
        | .ok parsed => (parseLines (lineno + 1) rest).map (parsed :: ·)

def parsePerCertNdjson (stdout : Bytes) : Except String (List Verdicts) :=
  match fromUtf8 stdout with
  | .error failure => .error ("stdout not valid UTF-8: " ++ failure)
  | .ok text => parseLines reader 0 (lines text)

def parsePerCertOutput (stdout : Bytes) : Except String Verdicts :=
  match fromUtf8 stdout with
  | .error failure => .error ("stdout not valid UTF-8: " ++ failure)
  | .ok text => parsePerCertJsonValue reader (trim text)

end Parsing

section Errors

def contains (text : Text) (needle : String) : Bool := decide (needle.toList <:+: text)

def looksLikeMalformed (stderr : Text) : Bool :=
  contains stderr "unable to parse input" || contains stderr "parsing as certificate" ||
    contains stderr "malformed"

def classifyExit (status : ExitStatus) (stderr : Bytes) : BridgeError :=
  match status with
  | .signal number => .subprocessKilled (some number)
  | .code value => .subprocessFailed (some value) (String.ofList (fromUtf8Lossy stderr))

def classifyZlintCertError (stderr : Bytes) : PerCertError :=
  let text := fromUtf8Lossy stderr
  if looksLikeMalformed text then .malformedDer (String.ofList text)
  else .other (String.ofList text)

def truncateForDisplay (text : Text) : String :=
  if (StdText.utf8 text).length ≤ 512 then String.ofList text
  else String.ofList (text.take 512 ++ "... (truncated)".toList)

end Errors

section Cache

/-- A poisoned lock is one that no entry can be read or written under. -/
structure Cache where
  entries : AList fun _ : Digest => Verdicts
  poisoned : Bool

def Cache.get (cache : Cache) (key : Digest) : Option Verdicts :=
  if cache.poisoned then none else cache.entries.lookup key

def Cache.put (cache : Cache) (key : Digest) (value : Verdicts) : Cache :=
  if cache.poisoned then cache else { cache with entries := cache.entries.insert key value }

end Cache

section Single

/-- What lies outside the bridge; the number is that of the runs before. -/
structure World where
  newTempDir : Nat → Except BridgeError Unit
  writeFile : Nat → Digest → Bytes → Except BridgeError Unit
  runSubprocess : Nat → List Bytes → Except BridgeError Output

/-- The failures of the call for a single certificate. -/
inductive Error
  | bridge (error : BridgeError)
  | cert (error : PerCertError)
  deriving DecidableEq

variable (reader : JsonReader) (sha256 : Bytes → Digest) (world : World)

/-- What the program's output says about the one certificate that it was given. -/
def acceptSingle (cache : Cache) (key : Digest) (output : Output) :
    Except Error Verdicts × Cache :=
  if !output.status.success then (.error (.cert (classifyZlintCertError output.stderr)), cache)
  else
    match parsePerCertOutput reader output.stdout with
    | .error detail => (.error (.bridge (.outputParseError detail)), cache)
    | .ok verdicts => (.ok verdicts, cache.put key verdicts)

def runOnCert (cache : Cache) (run : Nat) (der : Bytes) : Except Error Verdicts × Cache :=
  let key := sha256 der
  match cache.get key with
  | some hit => (.ok hit, cache)
  | none =>
      let output := do
        world.newTempDir run
        world.writeFile run key der
        world.runSubprocess run [der]
      match output with
      | .error error => (.error (.bridge error), cache)
      | .ok output => acceptSingle reader cache key output

end Single

section Batches

inductive Failure
  | bridge (error : BridgeError)
  | indexOutOfBounds
  | emptySlot
  /-- The bound on the runs is used up, which no call meets. -/
  | unfinished
  deriving DecidableEq

def orPanic {α : Type} (panic : Failure) : Option α → Except Failure α
  | some value => .ok value
  | none => .error panic

def bridged {α : Type} : Except BridgeError α → Except Failure α
  | .ok value => .ok value
  | .error error => .error (.bridge error)

/-- The files of a scratch directory by their names, which are digests. -/
abbrev Scratch := AList fun _ : Digest => Bytes

structure Batch where
  pending : List Nat
  results : List (Option CertResult)
  cache : Cache
  invocations : Nat

variable (reader : JsonReader) (sha256 : Bytes → Digest) (world : World)
variable (certs : List Bytes) (keys : List Digest)

/-- The paths of the written files, and the directory. -/
def writeDer (run : Nat) : List Nat → Scratch → Except Failure (List Digest × Scratch)
  | [], scratch => .ok ([], scratch)
  | index :: rest, scratch => do
      let der ← orPanic .indexOutOfBounds certs[index]?
      let key ← orPanic .indexOutOfBounds keys[index]?
      bridged (world.writeFile run key der)
      let (paths, written) ← writeDer run rest (scratch.insert key der)
      .ok (key :: paths, written)

/-- The contents of the files that the program is given, in order. -/
def prepareFiles (batch : Batch) : Except Failure (List Bytes) := do
  bridged (world.newTempDir batch.invocations)
  let (paths, written) ← writeDer world certs keys batch.invocations batch.pending ∅
  .ok (paths.filterMap fun path => written.lookup path)

def recordLine (batch : Batch) (entry : Nat × Verdicts) : Option Batch := do
  let key ← keys[entry.1]?
  let results ← fill batch.results entry.1 (.ok entry.2)
  some { batch with cache := batch.cache.put key entry.2, results }

def recordLines (batch : Batch) (entries : List (Nat × Verdicts)) : Option Batch :=
  entries.foldlM (recordLine keys) batch

def emittedForInputs (front : String) (lines inputs : Nat) : BridgeError :=
  .outputParseError (front ++ " emitted " ++ lines.repr ++ " lines for " ++ inputs.repr ++ " inputs")

/-- What follows a run that has ended with success. -/
def acceptOutput (batch : Batch) (lines : List Verdicts) : Except Failure Unit × Batch :=
  if lines.length ≠ batch.pending.length then
    (.error (.bridge (emittedForInputs "zlint succeeded but" lines.length batch.pending.length)),
      batch)
  else
    match recordLines keys batch (batch.pending.zip lines) with
    | none => (.error .indexOutOfBounds, batch)
    | some recorded => (.ok (), { recorded with pending := [] })

/-- What follows a run that has stopped at a certificate: the next one after those with a line. -/
def acceptPrefix (batch : Batch) (lines : List Verdicts) (stderr : Text) :
    Except Failure Unit × Batch :=
  if batch.pending.length < lines.length then
    (.error (.bridge (emittedForInputs "zlint failed but" lines.length batch.pending.length)), batch)
  else
    match recordLines keys batch ((batch.pending.take lines.length).zip lines) with
    | none => (.error .indexOutOfBounds, batch)
    | some recorded =>
        if lines.length = recorded.pending.length then
          (.error (.bridge (.outputParseError
            ("zlint failed but every input produced a line; stderr: " ++
              truncateForDisplay stderr))), recorded)
        else
          match recorded.pending[lines.length]? with
          | none => (.error .indexOutOfBounds, recorded)
          | some failingSlot =>
              match fill recorded.results failingSlot
                  (.error (.malformedDer (String.ofList stderr))) with
              | none => (.error .indexOutOfBounds, recorded)
              | some results =>
                  (.ok (), { recorded with results, pending := recorded.pending.drop (lines.length + 1) })

def acceptRun (batch : Batch) (output : Output) : Except Failure Unit × Batch :=
  match parsePerCertNdjson reader output.stdout with
  | .error detail => (.error (.bridge (.outputParseError detail)), batch)
  | .ok lines =>
      if output.status.success then acceptOutput keys batch lines
      else if !looksLikeMalformed (fromUtf8Lossy output.stderr) then
        (.error (.bridge (classifyExit output.status output.stderr)), batch)
      else acceptPrefix keys batch lines (fromUtf8Lossy output.stderr)

def runPendingBatch (batch : Batch) : Except Failure Unit × Batch :=
  match prepareFiles world certs keys batch with
  | .error failure => (.error failure, batch)
  | .ok files =>
      let invoked := { batch with invocations := batch.invocations + 1 }
      match world.runSubprocess batch.invocations files with
      | .error error => (.error (.bridge error), invoked)
      | .ok output => acceptRun reader keys invoked output

/-- The loop over what is pending, to a bounded number of runs. -/
def runBatches : (bound : Nat) → Batch → Except Failure Unit × Batch
  | bound, batch =>
      if batch.pending.isEmpty then (.ok (), batch)
      else
        match bound with
        | 0 => (.error .unfinished, batch)
        | bound + 1 =>
            match runPendingBatch reader world certs keys batch with
            | (.error failure, after) => (.error failure, after)
            | (.ok (), after) => runBatches bound after

/-- The certificates that the cache has no verdicts for. -/
def startBatch (cache : Cache) : Batch where
  pending := (certs.zipIdx.filter fun entry => (cache.get (sha256 entry.1)).isNone).map Prod.snd
  results := certs.map fun der => (cache.get (sha256 der)).map .ok
  cache := cache
  invocations := 0

structure Run where
  outcome : Except Failure (List CertResult)
  cache : Cache
  invocations : Nat

def runOnCerts (cache : Cache) : Run :=
  if certs.isEmpty then ⟨.ok [], cache, 0⟩
  else
    let started := startBatch sha256 certs cache
    match runBatches reader world certs (certs.map sha256) started.pending.length started with
    | (.error failure, batch) => ⟨.error failure, batch.cache, batch.invocations⟩
    | (.ok (), batch) =>
        ⟨batch.results.mapM (orPanic .emptySlot), batch.cache, batch.invocations⟩

end Batches

end Pkix.Zlint
