import MatchingEngine.App.Storage
import MatchingEngine.Core.Replay

/-!
# Run and replay

The functions of `app/main.cpp` that write the two logs, run the engine and replay the
logs. A path stands for what is at it; what is printed is left out.
-/

namespace App

open MatchingEngine Wal

/-- `command_stream_id`. -/
def commandStreamId : UInt64 := 10

/-- `event_stream_id`. -/
def eventStreamId : UInt64 := 20

/-- `epoch`. -/
def epoch : UInt64 := 1

/-- `first_sequence`. -/
def firstSequence : UInt64 := 1

/-! ## Writing -/

section Writing

variable {α : Type} (layout : StorageLayout α) (recordType : UInt32)

/-- The loop of `write_commands` and `write_events`, which gives up at the first append
that fails. -/
def appendRecords : List α → (ℕ → Padding) → WalSegmentWriter → Bool × WalSegmentWriter
  | [], _, writer => (true, writer)
  | record :: records, padding, writer =>
    let append := appendStorageRecord layout recordType record (padding 0) writer
    if append.1.status ≠ .appended then (false, append.2)
    else appendRecords records (fun i => padding (i + 1)) append.2

/-- The configuration of the writer: the log starts with the number of the first record. -/
def logConfig (streamId : UInt64) (sequenceOf : α → UInt64) (records : List α) :
    WalWriterConfig where
  streamId := streamId
  epoch := epoch
  firstSequence :=
    match records with
    | [] => firstSequence
    | front :: _ => sequenceOf front

/-- `write_commands` and `write_events`: what they return, and what is at the path when
the writer has gone out of scope. Whatever was there before has been removed. `outcomes`
is what the device makes of the operations of the writer's stream. -/
def writeLog (streamId : UInt64) (sequenceOf : α → UInt64) (records : List α)
    (padding : ℕ → Padding) (outcomes : List SinkOutcome) : Bool × FileEntry :=
  let writer := WalSegmentWriter.create (logConfig streamId sequenceOf records)
    { entry := .absent, outcomes := outcomes }
  let appended := appendRecords layout recordType records padding writer
  if appended.1 = false then (false, appended.2.destroy)
  else if records = [] then (true, appended.2.destroy)
  else
    let commit := appended.2.commit
    (decide (commit.1.status = .committed), commit.2.destroy)

end Writing

/-- `write_commands`. -/
def writeCommands (commands : List OrderCommandRecordV1) (padding : ℕ → Padding)
    (outcomes : List SinkOutcome) : Bool × FileEntry :=
  writeLog OrderCommand.storage orderCommandRecordType commandStreamId
    OrderCommandRecordV1.commandSequence commands padding outcomes

/-- `write_events`. -/
def writeEvents (events : List ExecutionEventRecordV1) (padding : ℕ → Padding)
    (outcomes : List SinkOutcome) : Bool × FileEntry :=
  writeLog ExecutionEvent.storage executionEventRecordType eventStreamId
    ExecutionEventRecordV1.eventSequence events padding outcomes

/-- `run_engine`. -/
def runEngine (commands : List OrderCommandRecordV1) : List ExecutionEventRecordV1 :=
  ((InstrumentEngine.create firstSequence).applyAll commands).1

/-! ## Replaying -/

section Reading

variable {α : Type} (layout : StorageLayout α) (recordType : UInt32) (file : List UInt8)

/-- `WalCommandReplayReader::read_next` and `WalEventReplayReader::read_next`. -/
def replayReadNext (reader : WalSegmentReader) : ReadOutcome α × WalSegmentReader :=
  let read := readStorageRecord layout recordType file reader
  match read.1.status with
  | .recordRead => (read.2.1.elim .failed .recordRead, read.2.2)
  | .endOfLog => (.endOfLog, read.2.2)
  | .failed => (.failed, read.2.2)

/-- What the next calls of `read_next` return. -/
def readScript : ℕ → WalSegmentReader → ReadScript α
  | 0, _ => []
  | calls + 1, reader =>
    let next := replayReadNext layout recordType file reader
    next.1 :: readScript calls next.2

/-- What a replay can read from a log. Every record takes up space in the file and a
replay stops at the first read without a record, so it never makes more calls. -/
def logScript (entry : FileEntry) : ReadScript α :=
  readScript layout recordType (entry.bytes?.getD []) ((entry.bytes?.getD []).length + 1)
    (WalSegmentReader.create entry)

end Reading

/-- The result of the replay in `replay_wals`. -/
def replayResult (commandWal eventWal : FileEntry) : ReplayResult :=
  (ReplayRunner.replay (logScript OrderCommand.storage orderCommandRecordType commandWal)
    (logScript ExecutionEvent.storage executionEventRecordType eventWal)
    (InstrumentEngine.create firstSequence)).1

/-- `replay_wals`, with its exit code. -/
def replayWals (commandWal eventWal : FileEntry) : ℕ :=
  if (replayResult commandWal eventWal).ok then 0 else 2

end App
