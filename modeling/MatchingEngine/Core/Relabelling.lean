import MatchingEngine.Core.Symmetry

/-!
# What names mean to the engine

The engine asks of two order ids, and of two instrument ids, whether they are the same, and
whether a replacement id is zero. It asks nothing of client ids, ingress positions and command
numbers. Under other names it therefore does the same, and answers under these names.
-/

namespace MatchingEngine

namespace Relabelling

variable (R : Relabelling)

/-- The change of the names alone. -/
def symmetry : Symmetry :=
  { Symmetry.same with toRelabelling := R }

/-- Every command is admitted. -/
theorem symmetry_admits (command : OrderCommandRecordV1) : R.symmetry.Admits command :=
  fun _ => trivial

variable {R} in
/-- The levels of the second moment. -/
theorem levels_of_relates {m m' : Moment} (h : R.symmetry.Relates m m') (s : Side) :
    m'.levels s = (m.levels s).map R.level := h.levels s

variable {R} in
/-- The counters stay as they are. -/
theorem counters_of_relates {m m' : Moment} (h : R.symmetry.Relates m m') :
    m'.counters = m.counters := h.counters

/-- Every run of two engines, the second of which knows the orders under the new names. -/
theorem relates_applyAll {engine engine' : InstrumentEngine} (hreach : engine.Reachable)
    (h : R.symmetry.Relates engine.orderBook.moment engine'.orderBook.moment)
    (commands : List OrderCommandRecordV1) :
    (engine'.applyAll (commands.map R.command)).1 = (engine.applyAll commands).1.map R.event ∧
      R.symmetry.Relates (engine.applyAll commands).2.orderBook.moment
        (engine'.applyAll (commands.map R.command)).2.orderBook.moment :=
  h.applyAll hreach fun command (_ : command ∈ commands) => R.symmetry_admits command

/-- Every run of a fresh engine. -/
theorem relates_run (firstEventSequence : UInt64) (commands : List OrderCommandRecordV1) :
    ((InstrumentEngine.create firstEventSequence).applyAll (commands.map R.command)).1 =
        ((InstrumentEngine.create firstEventSequence).applyAll commands).1.map R.event ∧
      R.symmetry.Relates
        ((InstrumentEngine.create firstEventSequence).applyAll commands).2.orderBook.moment
        ((InstrumentEngine.create firstEventSequence).applyAll
          (commands.map R.command)).2.orderBook.moment :=
  R.relates_applyAll (InstrumentEngine.reachable_create firstEventSequence)
    (R.symmetry.relates_create firstEventSequence) commands

end Relabelling

/-- Commands under other names give the events under these names, with the same numbers, and
leave the book behind under these names. -/
theorem relabelled_run (R : Relabelling) (firstEventSequence : UInt64)
    (commands : List OrderCommandRecordV1) :
    let fresh := InstrumentEngine.create firstEventSequence
    let run := fresh.applyAll commands
    let relabelled := fresh.applyAll (commands.map R.command)
    relabelled.1 = run.1.map R.event ∧
      relabelled.2.orderBook.bids.entries = run.2.orderBook.bids.entries.map R.level ∧
      relabelled.2.orderBook.asks.entries = run.2.orderBook.asks.entries.map R.level ∧
      relabelled.2.orderBook.instrumentId = run.2.orderBook.instrumentId.map R.instrumentId ∧
      relabelled.2.orderBook.counters = run.2.orderBook.counters := by
  intro fresh run relabelled
  obtain ⟨hevents, hbook⟩ := R.relates_run firstEventSequence commands
  exact ⟨hevents, hbook.levels .buy, hbook.levels .sell, hbook.instrumentId, hbook.counters⟩

/-- A trade, a replacement that is refused and one that is accepted, under the opposite names. -/
theorem relabelled_run_opposite :
    let opposite : Relabelling :=
      { orderId := fun id => -id
        instrumentId := fun id => ~~~id
        clientId := fun _ => 9
        commandSequence := fun number => number * 2
        sourceIngressEpoch := fun _ => 0
        sourceIngressSequence := id
        orderId_injective := fun _ _ h => UInt64.neg_inj.mp h
        orderId_zero := rfl
        instrumentId_injective := fun _ _ h => UInt32.not_inj.mp h }
    let fresh := InstrumentEngine.create 1
    let commands : List OrderCommandRecordV1 :=
      [{ commandSequence := 1, orderId := 1, clientId := 5, priceTicks := 40, quantityLots := 3
         instrumentId := 1, commandType := 1, side := 2, timeInForce := 1 },
        { commandSequence := 2, orderId := 2, clientId := 6, priceTicks := 45, quantityLots := 2
          instrumentId := 1, commandType := 1, side := 1, timeInForce := 1 },
        { commandSequence := 3, orderId := 1, replacementOrderId := 0, priceTicks := 41
          quantityLots := 7, instrumentId := 1, commandType := 3, side := 2, timeInForce := 1 },
        { commandSequence := 4, orderId := 1, replacementOrderId := 3, priceTicks := 41
          quantityLots := 7, instrumentId := 1, commandType := 3, side := 2, timeInForce := 1 }]
    (fresh.applyAll (commands.map opposite.command)).1 =
      (fresh.applyAll commands).1.map opposite.event :=
  (relabelled_run _ 1 _).1

end MatchingEngine
