import MatchingEngine.App.Storage
import MatchingEngine.Core.Numbering
import MatchingEngine.Wal.CommitProtocol
import MatchingEngine.Wal.Sessions

/-!
# Event numbers and log positions

The engine counts its events and the writer counts its records. A writer that starts with
the number of the first event stays in step with the engine, because both counters go up
by one and neither of them leaves out a number.
-/

namespace Wal.WalSegmentWriter

variable {config : WalWriterConfig} {writer : WalSegmentWriter} {sequence : UInt64}
  {bytes : List UInt8}

/-- The appends of a writer that is ready succeed and get consecutive numbers. -/
theorem Ready.append_results (h : Ready config sequence bytes writer) (calls : List Append) :
    (machine.run writer (calls.map .append)).1 =
      (FixedWidth.numbersFrom sequence calls.length).map fun number =>
        .append { status := .appended, position := ⟨config.streamId, config.epoch, number⟩ } := by
  induction calls generalizing sequence bytes writer with
  | nil => rfl
  | cons call calls ih =>
    obtain ⟨hresult, hready⟩ := h.append call
    have hstep : machine.step writer (.append call) =
        ([.append (writer.append call).1], (writer.append call).2) := rfl
    rw [List.map_cons, machine.run_cons, hstep, List.length_cons, FixedWidth.numbersFrom_succ',
      List.map_cons, ih hready, hresult]
    rfl

end Wal.WalSegmentWriter

namespace App

open MatchingEngine Wal FixedWidth

/-- Over every run the events are numbered without gaps, the trades among them are
numbered without gaps from one, no other event names a trade or a contra order, and every
event answers its command. Appended to a new log that starts with the number of the first
event, every event gets a position with its own number. -/
theorem event_numbers_are_positions (firstEventSequence : UInt64)
    (commands : List OrderCommandRecordV1) :
    let fresh := InstrumentEngine.create firstEventSequence
    let events := (fresh.applyAll commands).1
    events.map ExecutionEventRecordV1.eventSequence =
        numbersFrom firstEventSequence events.length ∧
      (tradesOf events).map ExecutionEventRecordV1.tradeId =
        numbersFrom 1 (tradesOf events).length ∧
      (∀ event ∈ events, ¬ event.IsTrade → event.tradeId = 0 ∧ event.contraOrderId = 0) ∧
      (∀ earlier command later, commands = earlier ++ command :: later →
        ∀ event ∈ ((fresh.applyAll earlier).2.apply command).1, event.AnswersTo command) ∧
      ∀ (config : WalWriterConfig) (padding : ℕ → Padding) (outcomes : List SinkOutcome),
        (∀ outcome ∈ outcomes, outcome.fails = false) →
        (∀ event ∈ events.head?, config.firstSequence = event.eventSequence) →
        (WalSegmentWriter.machine.run
            (WalSegmentWriter.create config { entry := .absent, outcomes := outcomes })
            ((storageAppends ExecutionEvent.storage executionEventRecordType padding events).map
              .append)).1 =
          events.map fun event => .append
            { status := .appended
              position := ⟨config.streamId, config.epoch, event.eventSequence⟩ } := by
  intro fresh events
  have hnumbered := InstrumentEngine.applyAll_numbered firstEventSequence commands
  refine ⟨hnumbered.eventNumbers, hnumbered.tradeNumbers, hnumbered.others, ?_, ?_⟩
  · intro earlier command later _ event hevent
    exact (InstrumentEngine.reachable_applyAll firstEventSequence earlier).answersTo hevent
  · intro config padding outcomes houtcomes hfirst
    have hready := WalSegmentWriter.ready_create_fresh config (.inl rfl) houtcomes
    have hnumbers : numbersFrom config.firstSequence events.length =
        events.map ExecutionEventRecordV1.eventSequence := by
      have heventNumbers : events.map ExecutionEventRecordV1.eventSequence =
          numbersFrom firstEventSequence events.length := hnumbered.eventNumbers
      generalize events = events at heventNumbers hfirst
      cases events with
      | nil => rfl
      | cons event rest =>
        -- The writer starts where the engine started.
        have hsame : config.firstSequence = firstEventSequence := by
          have hhead := List.cons.inj
            ((List.map_cons ..).symm.trans (heventNumbers.trans (numbersFrom_succ' _ _)))
          exact (hfirst event rfl).trans hhead.1
        rw [hsame, heventNumbers]
    rw [hready.append_results, storageAppends_length, hnumbers, List.map_map]
    rfl

end App
