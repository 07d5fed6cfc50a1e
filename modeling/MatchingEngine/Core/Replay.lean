import MatchingEngine.Core.InstrumentEngine

/-!
# Replay

`core/replay.hpp` and `core/replay.cpp`. The two log readers are scripts of read
outcomes, since replay knows nothing about them but the status and the record of
each read. A script that has run out answers like a failed read, which is also the
default status of a read result.
-/

namespace MatchingEngine

/-- `ReplayReadStatus`, with the record of a successful read. -/
inductive ReadOutcome (α : Type) where
  | recordRead (record : α)
  | endOfLog
  | failed

/-- The outcomes a log reader is going to return, in order. -/
abbrev ReadScript (α : Type) := List (ReadOutcome α)

/-- `read_next` of a log reader. -/
def ReadScript.readNext {α : Type} : ReadScript α → ReadOutcome α × ReadScript α
  | [] => (.failed, [])
  | outcome :: rest => (outcome, rest)

/-- `ReplayFailureClass`. -/
inductive ReplayFailureClass where
  | none
  | commandReadFailed
  | storedEventReadFailed
  | commandSequenceBreak
  | storedEventMissing
  | extraStoredEvent
  | eventFieldMismatch
  | invariantViolation
  deriving DecidableEq

/-- `EventField`. -/
inductive EventField where
  | none
  | eventType
  | eventSequence
  | commandSequence
  | sourceIngressEpoch
  | sourceIngressSequence
  | instrumentId
  | orderId
  | contraOrderId
  | side
  | priceTicks
  | quantityLots
  | remainingQuantityLots
  | tradeId
  | rejectionReason
  | reserved
  deriving DecidableEq

/-- `EventComparison`. -/
structure EventComparison where
  equal : Bool := true
  field : EventField := .none
  deriving DecidableEq

/-- `EventComparator::compare`: the first field in which the events differ. -/
def EventComparator.compare (expected actual : ExecutionEventRecordV1) : EventComparison :=
  if expected.eventType ≠ actual.eventType then ⟨false, .eventType⟩
  else if expected.eventSequence ≠ actual.eventSequence then ⟨false, .eventSequence⟩
  else if expected.commandSequence ≠ actual.commandSequence then ⟨false, .commandSequence⟩
  else if expected.sourceIngressEpoch ≠ actual.sourceIngressEpoch then
    ⟨false, .sourceIngressEpoch⟩
  else if expected.sourceIngressSequence ≠ actual.sourceIngressSequence then
    ⟨false, .sourceIngressSequence⟩
  else if expected.instrumentId ≠ actual.instrumentId then ⟨false, .instrumentId⟩
  else if expected.orderId ≠ actual.orderId then ⟨false, .orderId⟩
  else if expected.contraOrderId ≠ actual.contraOrderId then ⟨false, .contraOrderId⟩
  else if expected.side ≠ actual.side then ⟨false, .side⟩
  else if expected.priceTicks ≠ actual.priceTicks then ⟨false, .priceTicks⟩
  else if expected.quantityLots ≠ actual.quantityLots then ⟨false, .quantityLots⟩
  else if expected.remainingQuantityLots ≠ actual.remainingQuantityLots then
    ⟨false, .remainingQuantityLots⟩
  else if expected.tradeId ≠ actual.tradeId then ⟨false, .tradeId⟩
  else if expected.rejectionReason ≠ actual.rejectionReason then ⟨false, .rejectionReason⟩
  else if expected.reserved ≠ actual.reserved then ⟨false, .reserved⟩
  else {}

/-- `ReplayFailure`. -/
structure ReplayFailure where
  failureClass : ReplayFailureClass := .none
  commandSequence : UInt64 := 0
  command : OrderCommandRecordV1 := {}
  expectedEvent : Option ExecutionEventRecordV1 := none
  actualEvent : Option ExecutionEventRecordV1 := none
  eventIndexWithinCommand : ℕ := 0
  globalEventSequence : UInt64 := 0
  field : EventField := .none
  bookSnapshotBeforeCommand : String := ""
  bookSnapshotAfterCommand : String := ""
  deriving DecidableEq

/-- `ReplayResult`. -/
structure ReplayResult where
  ok : Bool := true
  commandsReplayed : UInt64 := 0
  eventsCompared : UInt64 := 0
  failure : ReplayFailure := {}
  deriving DecidableEq

/-- `failed_result`. -/
def failedResult (failure : ReplayFailure) (commandsReplayed eventsCompared : UInt64) :
    ReplayResult where
  ok := false
  commandsReplayed := commandsReplayed
  eventsCompared := eventsCompared
  failure := failure

/-- How the comparison of one command's events ended. -/
inductive CompareOutcome where
  | matched (rest : ReadScript ExecutionEventRecordV1) (eventsCompared : UInt64)
  | diverged (failure : ReplayFailure) (eventsCompared : UInt64)

/-- The loop of `replay` over the events generated for one command. -/
def compareEvents (command : OrderCommandRecordV1) (beforeSnapshot afterSnapshot : String) :
    List ExecutionEventRecordV1 → ℕ → ReadScript ExecutionEventRecordV1 → UInt64 → CompareOutcome
  | [], _, events, eventsCompared => .matched events eventsCompared
  | generated :: rest, index, events, eventsCompared =>
      match events.readNext with
      | (.endOfLog, _) =>
          .diverged
            { failureClass := .storedEventMissing
              commandSequence := command.commandSequence
              command := command
              expectedEvent := some generated
              eventIndexWithinCommand := index
              globalEventSequence := generated.eventSequence
              bookSnapshotBeforeCommand := beforeSnapshot
              bookSnapshotAfterCommand := afterSnapshot } eventsCompared
      | (.failed, _) =>
          .diverged
            { failureClass := .storedEventReadFailed
              commandSequence := command.commandSequence
              command := command
              eventIndexWithinCommand := index
              bookSnapshotBeforeCommand := beforeSnapshot
              bookSnapshotAfterCommand := afterSnapshot } eventsCompared
      | (.recordRead stored, events) =>
          if (EventComparator.compare generated stored).equal then
            compareEvents command beforeSnapshot afterSnapshot rest (index + 1) events
              (eventsCompared + 1)
          else
            .diverged
              { failureClass := .eventFieldMismatch
                commandSequence := command.commandSequence
                command := command
                expectedEvent := some generated
                actualEvent := some stored
                eventIndexWithinCommand := index
                globalEventSequence := generated.eventSequence
                field := (EventComparator.compare generated stored).field
                bookSnapshotBeforeCommand := beforeSnapshot
                bookSnapshotAfterCommand := afterSnapshot } eventsCompared

/-- The end of `replay`, reached when the command log has ended. -/
def finishReplay (events : ReadScript ExecutionEventRecordV1) (result : ReplayResult) :
    ReplayResult :=
  match events.readNext with
  | (.recordRead extraEvent, _) =>
      failedResult
        { failureClass := .extraStoredEvent
          actualEvent := some extraEvent
          globalEventSequence := extraEvent.eventSequence }
        result.commandsReplayed result.eventsCompared
  | (.failed, _) =>
      failedResult { failureClass := .storedEventReadFailed } result.commandsReplayed
        result.eventsCompared
  | (.endOfLog, _) => result

/-- The test of the command sequence in `replay`. -/
def breaksSequence (previousCommandSequence : Option UInt64) (command : OrderCommandRecordV1) :
    Bool :=
  match previousCommandSequence with
  | none => false
  | some previous => decide (command.commandSequence ≠ previous + 1)

/-- The main loop of `replay`. The engine is an argument of the source function
that it changes, so the engine it leaves behind is returned too. -/
def replayLoop : ReadScript OrderCommandRecordV1 → Option UInt64 →
    ReadScript ExecutionEventRecordV1 → InstrumentEngine → ReplayResult →
    ReplayResult × InstrumentEngine
  | .endOfLog :: _, _, events, engine, result => (finishReplay events result, engine)
  | .recordRead command :: commands, previous, events, engine, result =>
      if breaksSequence previous command then
        (failedResult
          { failureClass := .commandSequenceBreak
            commandSequence := command.commandSequence
            command := command
            bookSnapshotBeforeCommand := engine.orderBook.snapshot }
          result.commandsReplayed result.eventsCompared, engine)
      else
        let applied := engine.apply command
        let beforeSnapshot := engine.orderBook.snapshot
        let afterSnapshot := applied.2.orderBook.snapshot
        match compareEvents command beforeSnapshot afterSnapshot applied.1 0 events
          result.eventsCompared with
        | .diverged failure eventsCompared =>
            (failedResult failure result.commandsReplayed eventsCompared, applied.2)
        | .matched events eventsCompared =>
            if applied.2.orderBook.validateInvariants then
              replayLoop commands (some command.commandSequence) events applied.2
                { result with
                  commandsReplayed := result.commandsReplayed + 1
                  eventsCompared := eventsCompared }
            else
              (failedResult
                { failureClass := .invariantViolation
                  commandSequence := command.commandSequence
                  command := command
                  bookSnapshotBeforeCommand := beforeSnapshot
                  bookSnapshotAfterCommand := afterSnapshot }
                result.commandsReplayed eventsCompared, applied.2)
  | .failed :: _, _, _, engine, result
  | [], _, _, engine, result =>
      (failedResult { failureClass := .commandReadFailed } result.commandsReplayed
        result.eventsCompared, engine)

/-- `ReplayRunner::replay`. -/
def ReplayRunner.replay (commands : ReadScript OrderCommandRecordV1)
    (events : ReadScript ExecutionEventRecordV1) (engine : InstrumentEngine) :
    ReplayResult × InstrumentEngine := replayLoop commands none events engine {}

/-- A test of one field passes exactly when the field agrees and the rest passes. -/
theorem EventComparison.equal_ite {α : Type} [DecidableEq α] (expected actual : α)
    (field : EventField) (rest : EventComparison) :
    (if expected ≠ actual then ⟨false, field⟩ else rest : EventComparison).equal = true ↔
      expected = actual ∧ rest.equal = true := by
  by_cases h : expected = actual <;> simp [h]

/-- Two events compare equal exactly when they are equal in every field. -/
theorem EventComparator.compare_equal_iff (expected actual : ExecutionEventRecordV1) :
    (EventComparator.compare expected actual).equal = true ↔ expected = actual := by
  simp only [compare, EventComparison.equal_ite, and_true]
  cases expected
  cases actual
  rw [ExecutionEventRecordV1.mk.injEq]
  tauto

end MatchingEngine
