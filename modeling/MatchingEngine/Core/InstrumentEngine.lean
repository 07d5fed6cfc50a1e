import MatchingEngine.Core.OrderBook
import MatchingEngine.Library.Machine

/-!
# The instrument engine

`core/instrument_engine.cpp`: command dispatch for one order book. Runs over a
list of commands are runs of the machine whose step is `InstrumentEngine.apply`.
-/

namespace MatchingEngine

/-- `core::InstrumentEngine`. -/
structure InstrumentEngine where
  orderBook : OrderBook

/-- The constructor of `InstrumentEngine`. -/
def InstrumentEngine.create (firstEventSequence : UInt64 := 1) : InstrumentEngine where
  orderBook := OrderBook.create firstEventSequence

/-- Route a command to the operation of the book that it names. -/
def OrderBook.dispatch (book : OrderBook) (command : OrderCommandRecordV1) :
    List ExecutionEventRecordV1 × OrderBook :=
  match decodeCommandType command.commandType with
  | none => book.reject command .unsupportedCommand
  | some .newOrder => book.applyNewOrder command
  | some .cancelOrder => book.applyCancelOrder command
  | some .replaceOrder => book.applyReplaceOrder command

/-- `InstrumentEngine::apply`. -/
def InstrumentEngine.apply (engine : InstrumentEngine) (command : OrderCommandRecordV1) :
    List ExecutionEventRecordV1 × InstrumentEngine :=
  ((engine.orderBook.dispatch command).1, ⟨(engine.orderBook.dispatch command).2⟩)

/-- The engine as a machine that answers commands with events. -/
def engineMachine : Machine InstrumentEngine OrderCommandRecordV1 ExecutionEventRecordV1 where
  step := InstrumentEngine.apply

/-- Apply a list of commands in order and concatenate their events. -/
def InstrumentEngine.applyAll (engine : InstrumentEngine) (commands : List OrderCommandRecordV1) :
    List ExecutionEventRecordV1 × InstrumentEngine := engineMachine.run engine commands

/-- Some run of commands leads from a fresh engine to this one. -/
def InstrumentEngine.Reachable (engine : InstrumentEngine) : Prop :=
  ∃ firstEventSequence,
    Machine.Reachable engineMachine (InstrumentEngine.create firstEventSequence) engine

@[simp] theorem InstrumentEngine.applyAll_nil (engine : InstrumentEngine) :
    engine.applyAll [] = ([], engine) := rfl

theorem InstrumentEngine.applyAll_cons (engine : InstrumentEngine) (command : OrderCommandRecordV1)
    (commands : List OrderCommandRecordV1) :
    engine.applyAll (command :: commands) =
      ((engine.apply command).1 ++ ((engine.apply command).2.applyAll commands).1,
        ((engine.apply command).2.applyAll commands).2) := rfl

/-- One more command is applied to the engine that the commands before it leave. -/
theorem InstrumentEngine.applyAll_concat (engine : InstrumentEngine)
    (commands : List OrderCommandRecordV1) (command : OrderCommandRecordV1) :
    engine.applyAll (commands ++ [command]) =
      ((engine.applyAll commands).1 ++ ((engine.applyAll commands).2.apply command).1,
        ((engine.applyAll commands).2.apply command).2) :=
  engineMachine.run_concat engine commands command

/-- A fresh engine is reachable. -/
theorem InstrumentEngine.reachable_create (firstEventSequence : UInt64) :
    (InstrumentEngine.create firstEventSequence).Reachable := ⟨firstEventSequence, [], rfl⟩

/-- One more command leads from a reachable engine to a reachable engine. -/
theorem InstrumentEngine.Reachable.apply {engine : InstrumentEngine} (hreach : engine.Reachable)
    (command : OrderCommandRecordV1) : (engine.apply command).2.Reachable := by
  obtain ⟨firstEventSequence, commands, rfl⟩ := hreach
  refine ⟨firstEventSequence, commands ++ [command], ?_⟩
  rw [engineMachine.run_concat]
  rfl

/-- A run from a fresh engine ends in a reachable engine. -/
theorem InstrumentEngine.reachable_applyAll (firstEventSequence : UInt64)
    (commands : List OrderCommandRecordV1) :
    ((InstrumentEngine.create firstEventSequence).applyAll commands).2.Reachable :=
  ⟨firstEventSequence, commands, rfl⟩

end MatchingEngine
