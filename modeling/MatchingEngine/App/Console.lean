import Mathlib.Logic.Function.Basic
import MatchingEngine.App.EventDump
import MatchingEngine.App.Main
import MatchingEngine.App.ScenarioLoader
import MatchingEngine.Projections.MarketData

/-!
# The command line

The commands of `app/main.cpp` with their arguments, exit codes and texts. A disk holds a regular
file or nothing at every place, and two names may lead to one place. Directories are taken for
granted.
-/

namespace App

open MatchingEngine Text Wal

variable {Place : Type}

/-- What is at the places of a disk. -/
abbrev Disk (Place : Type) := Place → Option (List UInt8)

/-- The file at a place, as the streams see it. -/
def Disk.entry (disk : Disk Place) (place : Place) : FileEntry :=
  match disk place with
  | none => .absent
  | some bytes => .file bytes

/-- What the program does not decide: the places that names lead to, the bytes of stored records
that belong to no field, what the devices make of the two writers, and the order in which a hash
map is visited. -/
structure Surroundings (Place : Type) where
  place : List UInt8 → Place
  commandPadding : ℕ → Padding := fun _ => {}
  eventPadding : ℕ → Padding := fun _ => {}
  commandOutcomes : List SinkOutcome := []
  eventOutcomes : List SinkOutcome := []
  orders : ℕ → IterationOrder := fun _ => .byId

/-- What a command returns, prints and leaves on the disk. -/
structure CommandOutcome (Place : Type) where
  exitCode : ℕ
  out : List UInt8 := []
  err : List UInt8 := []
  disk : Disk Place

/-! ## Texts -/

/-- `print_usage`. -/
def printUsage : List UInt8 :=
  ascii "usage:\n" ++
    ascii "  matching_engine run <scenario> [command.wal] [event.wal]\n" ++
    ascii "  matching_engine replay <command.wal> <event.wal>\n" ++
    ascii "  matching_engine dump-events <event.wal>\n" ++
    ascii "  matching_engine dump-book <event.wal>\n" ++
    ascii "  matching_engine dump-trades <event.wal>\n"

/-- `side_name`. -/
def sideName (side : UInt16) : List UInt8 :=
  if side = Side.buy.code then ascii "BUY"
  else if side = Side.sell.code then ascii "SELL"
  else ascii "NA"

/-- `operator<<` for paths: in quotes, with a backslash before quotes and backslashes. -/
def quoted (path : List UInt8) : List UInt8 :=
  34 :: path.flatMap (fun byte => if byte = 34 ∨ byte = 92 then [92, byte] else [byte]) ++ [34]

/-- The number of a `ReplayFailureClass`. -/
def failureClassNumber : ReplayFailureClass → ℕ
  | .none => 0
  | .commandReadFailed => 1
  | .storedEventReadFailed => 2
  | .commandSequenceBreak => 3
  | .storedEventMissing => 4
  | .extraStoredEvent => 5
  | .eventFieldMismatch => 6
  | .invariantViolation => 7

/-- What `replay_wals` prints. -/
def replayReport (result : ReplayResult) : List UInt8 :=
  if result.ok then
    ascii "Replay OK: commands=" ++ decimal result.commandsReplayed.toNat ++
      ascii " events=" ++ decimal result.eventsCompared.toNat ++ [newline]
  else
    ascii "Replay FAILED" ++
      ascii " class=" ++ decimal (failureClassNumber result.failure.failureClass) ++
      ascii " command_sequence=" ++ decimal result.failure.commandSequence.toNat ++
      ascii " event_index=" ++ decimal result.failure.eventIndexWithinCommand ++
      ascii " global_event_sequence=" ++ decimal result.failure.globalEventSequence.toNat ++
      [newline] ++
      (match result.failure.expectedEvent with
        | some event => ascii "expected: " ++ printEvent event
        | none => []) ++
      (match result.failure.actualEvent with
        | some event => ascii "actual: " ++ printEvent event
        | none => [])

/-- What `run_command` prints when both logs have been written. -/
def runReport (commandWal eventWal : List UInt8) (commands : List OrderCommandRecordV1)
    (events : List ExecutionEventRecordV1) : List UInt8 :=
  ascii "Run OK\n" ++
    ascii "commands: " ++ decimal commands.length ++ ascii " -> " ++ quoted commandWal ++
      [newline] ++
    ascii "events:   " ++ decimal events.length ++ ascii " -> " ++ quoted eventWal ++
      [newline] ++
    commands.flatMap printCommand ++ events.flatMap printEvent

/-- The lines of one side of the book. -/
def printLevels (levels : List PublicPriceLevel) : List UInt8 :=
  if levels = [] then ascii "  empty\n"
  else levels.flatMap fun level =>
    ascii "  " ++ decimalInt level.priceTicks.toInt ++ ascii ": " ++
      decimalInt level.quantityLots.toInt ++ [newline]

/-- What `dump_book_command` prints. -/
def printBook (book : PublicBookView) (lastAppliedEventSequence : UInt64) : List UInt8 :=
  ascii "Book instrument=" ++ decimal book.instrumentId.toNat ++
    ascii " last_event_sequence=" ++ decimal lastAppliedEventSequence.toNat ++ [newline] ++
    ascii "Bids:\n" ++ printLevels book.bids ++
    ascii "Asks:\n" ++ printLevels book.asks

/-- One line of `dump_trades_command`. -/
def printTrade (trade : PublicTrade) : List UInt8 :=
  ascii "trade=" ++ decimal trade.tradeId.toNat ++
    ascii " instrument=" ++ decimal trade.instrumentId.toNat ++
    ascii " incoming=" ++ decimal trade.incomingOrderId.toNat ++
    ascii " resting=" ++ decimal trade.restingOrderId.toNat ++
    ascii " side=" ++ sideName trade.aggressorSide ++
    ascii " price=" ++ decimalInt trade.priceTicks.toInt ++
    ascii " qty=" ++ decimalInt trade.quantityLots.toInt ++ [newline]

/-- The message about an event log that cannot be read. -/
def unreadable : List UInt8 := ascii "matching_engine: failed to read event WAL\n"

/-- The message about an event that the projection refuses. -/
def refusal (event : ExecutionEventRecordV1) (error : String) : List UInt8 :=
  ascii "matching_engine: market data projection rejected event " ++
    decimal event.eventSequence.toNat ++ ascii ": " ++ ascii error ++ [newline]

/-! ## Reading an event log -/

/-- The reads of an event log. -/
def eventScript (disk : Disk Place) (place : Place) : ReadScript ExecutionEventRecordV1 :=
  logScript ExecutionEvent.storage executionEventRecordType (disk.entry place)

/-- The loop of `dump_events_command`, with its exit code and the two texts. -/
def dumpEvents : ReadScript ExecutionEventRecordV1 → ℕ × List UInt8 × List UInt8
  | .endOfLog :: _ => (0, [], [])
  | .recordRead event :: reads =>
    let dumped := dumpEvents reads
    (dumped.1, printEvent event ++ dumped.2.1, dumped.2.2)
  | .failed :: _
  | [] => (1, [], unreadable)

/-- `apply_projection_from_event_wal`, with what it prints. -/
def applyProjectionFromEventWal : (ℕ → IterationOrder) → ReadScript ExecutionEventRecordV1 →
    MarketDataProjection → Bool × List UInt8 × MarketDataProjection
  | _, .endOfLog :: _, projection => (true, [], projection)
  | orders, .recordRead event :: reads, projection =>
    let applied := projection.apply (orders 0) event
    if applied.1.status = .rejected then (false, refusal event applied.1.error, applied.2)
    else applyProjectionFromEventWal (fun i => orders (i + 1)) reads applied.2
  | _, .failed :: _, projection
  | _, [], projection => (false, unreadable, projection)

/-! ## Commands -/

section Commands

variable [DecidableEq Place] (surroundings : Surroundings Place) (disk : Disk Place)

/-- A command with the wrong number of arguments. -/
def usage : CommandOutcome Place := { exitCode := 1, out := printUsage, disk := disk }

/-- `run_command`, where every name leads to a regular file or to nothing, in a directory that
exists or can be made. An empty name, a directory or a link in place of a file, and errors of
the file system itself (which throw) are left out. -/
def runCommand : List (List UInt8) → CommandOutcome Place
  | [] => usage disk
  | scenarioPath :: wals =>
    let commandWal := wals[0]?.getD (ascii "wal/commands.wal")
    let eventWal := wals[1]?.getD (ascii "wal/events.wal")
    let scenario := loadScenario scenarioPath (disk (surroundings.place scenarioPath))
    if scenario.ok = false then
      { exitCode := 1
        err := ascii "matching_engine: " ++ scenario.error ++ [newline]
        disk := disk }
    else
      let commandLog := writeCommands scenario.commands surroundings.commandPadding
        surroundings.commandOutcomes
      let disk := Function.update disk (surroundings.place commandWal) commandLog.2.bytes?
      if commandLog.1 = false then
        { exitCode := 1
          err := ascii "matching_engine: failed to write command WAL\n"
          disk := disk }
      else
        let events := runEngine scenario.commands
        let eventLog := writeEvents events surroundings.eventPadding surroundings.eventOutcomes
        let disk := Function.update disk (surroundings.place eventWal) eventLog.2.bytes?
        if eventLog.1 = false then
          { exitCode := 1
            err := ascii "matching_engine: failed to write event WAL\n"
            disk := disk }
        else
          let command := Disk.entry disk (surroundings.place commandWal)
          let event := Disk.entry disk (surroundings.place eventWal)
          { exitCode := replayWals command event
            out := runReport commandWal eventWal scenario.commands events ++
              replayReport (replayResult command event)
            disk := disk }

/-- `replay_command`. -/
def replayCommand : List (List UInt8) → CommandOutcome Place
  | [commandWal, eventWal] =>
    let command := disk.entry (surroundings.place commandWal)
    let event := disk.entry (surroundings.place eventWal)
    { exitCode := replayWals command event
      out := replayReport (replayResult command event)
      disk := disk }
  | _ => usage disk

/-- `dump_events_command`. -/
def dumpEventsCommand : List (List UInt8) → CommandOutcome Place
  | [eventWal] =>
    let dumped := dumpEvents (eventScript disk (surroundings.place eventWal))
    { exitCode := dumped.1, out := dumped.2.1, err := dumped.2.2, disk := disk }
  | _ => usage disk

/-- What `dump_book_command` and `dump_trades_command` share: a projection is fed from the log,
and printed if it has refused nothing. -/
def dumpProjection (print : MarketDataProjection → List UInt8) :
    List (List UInt8) → CommandOutcome Place
  | [eventWal] =>
    let fed := applyProjectionFromEventWal surroundings.orders
      (eventScript disk (surroundings.place eventWal)) {}
    if fed.1 = false then { exitCode := 1, err := fed.2.1, disk := disk }
    else { exitCode := 0, out := print fed.2.2, disk := disk }
  | _ => usage disk

/-- `dump_book_command`. -/
def dumpBookCommand (args : List (List UInt8)) : CommandOutcome Place :=
  dumpProjection surroundings disk
    (fun projection => printBook projection.book projection.lastAppliedEventSequence) args

/-- `dump_trades_command`. -/
def dumpTradesCommand (args : List (List UInt8)) : CommandOutcome Place :=
  dumpProjection surroundings disk (fun projection => projection.trades.flatMap printTrade) args

/-- `main`, with the arguments behind the name of the program. -/
def main : List (List UInt8) → CommandOutcome Place
  | [] => usage disk
  | command :: args =>
    if command = ascii "run" then runCommand surroundings disk args
    else if command = ascii "replay" then replayCommand surroundings disk args
    else if command = ascii "dump-events" then dumpEventsCommand surroundings disk args
    else if command = ascii "dump-book" then dumpBookCommand surroundings disk args
    else if command = ascii "dump-trades" then dumpTradesCommand surroundings disk args
    else usage disk

end Commands

end App
