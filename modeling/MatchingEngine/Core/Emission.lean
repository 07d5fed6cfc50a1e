import Mathlib.Logic.Function.Basic
import MatchingEngine.Core.InstrumentEngine

/-!
# The book at the moment an event is emitted

Matching emits events while the book is being changed. This file records, next
to every event of a command, the queues and the index as they are when the event
is pushed, and the signed subtractions made on the way there. Forgetting the
recorded book gives exactly the events of `InstrumentEngine.apply`.
-/

namespace MatchingEngine

/-- The price levels of both sides, best price first. -/
def OrderBook.levels (book : OrderBook) : Side → List PriceLevel
  | .buy => book.bids.entries
  | .sell => book.asks.entries

/-- An event with the command it is emitted for and the book at the moment of its
emission. -/
structure Emission where
  command : OrderCommandRecordV1
  event : ExecutionEventRecordV1
  levels : Side → List PriceLevel
  activeOrders : ActiveOrders
  /-- Minuend and subtrahend of every signed subtraction made since the previous emission. -/
  subtractions : List (Int64 × Int64)

/-- An event emitted while the book stands as given. -/
def OrderBook.emission (book : OrderBook) (command : OrderCommandRecordV1)
    (event : ExecutionEventRecordV1) (subtractions : List (Int64 × Int64) := []) : Emission where
  command := command
  event := event
  levels := book.levels
  activeOrders := book.activeOrders
  subtractions := subtractions

/-- The side of an incoming order, as the source decides it: everything that is
not a buy order is matched as a sell order. -/
def incomingSide (command : OrderCommandRecordV1) : Side :=
  if decodeSide command.side = some .buy then .buy else .sell

/-- The trade emitted by one iteration of the inner loop. The front order is
already reduced and indexed, and not yet removed if it was used up. -/
def fillEmission (command : OrderCommandRecordV1) (contra : Side) (levels : Side → List PriceLevel)
    (priceTicks : Int64) (restingOrder : RestingOrder) (rest : List RestingOrder)
    (worse : List PriceLevel) (vars : MatchVars) : Emission :=
  let fill := fillFront command priceTicks restingOrder vars
  let tradeQuantityLots := min vars.incomingRemaining restingOrder.remainingQuantityLots
  { command := command
    event := fill.event
    levels := Function.update levels contra ((priceTicks, fill.restingOrder :: rest) :: worse)
    activeOrders := fill.vars.activeOrders
    subtractions := [(vars.incomingRemaining, tradeQuantityLots),
      (restingOrder.remainingQuantityLots, tradeQuantityLots)] }

/-- The trades of `matchQueue` with the book at each of them. -/
def queueEmissions (command : OrderCommandRecordV1) (contra : Side)
    (levels : Side → List PriceLevel) (priceTicks : Int64) (worse : List PriceLevel) :
    List RestingOrder → MatchVars → List Emission
  | [], _ => []
  | restingOrder :: rest, vars =>
      if 0 < vars.incomingRemaining then
        let fill := fillFront command priceTicks restingOrder vars
        fillEmission command contra levels priceTicks restingOrder rest worse vars ::
          if fill.restingOrder.remainingQuantityLots = 0 then
            queueEmissions command contra levels priceTicks worse rest
              (fill.vars.dropOrder fill.restingOrder.orderId)
          else []
      else []

/-- The trades of `matchLevels` with the book at each of them. -/
def levelEmissions (command : OrderCommandRecordV1) (contra : Side)
    (levels : Side → List PriceLevel) : List PriceLevel → MatchVars → List Emission
  | [], _ => []
  | (bestPriceTicks, restingOrders) :: worse, vars =>
      if 0 < vars.incomingRemaining then
        if contra.Better command.priceTicks bestPriceTicks then []
        else
          let inner := matchQueue command bestPriceTicks restingOrders vars
          queueEmissions command contra levels bestPriceTicks worse restingOrders vars ++
            if inner.left.isEmpty then levelEmissions command contra levels worse inner.vars
            else []
      else []

/-- The emissions of `OrderBook.reject`. -/
def OrderBook.rejectEmissions (book : OrderBook) (command : OrderCommandRecordV1)
    (reason : RejectionReason) : List Emission :=
  [book.emission command (emitRejectionEvent book.counters command reason).1]

/-- The trades of `OrderBook.matchIncoming` with the book at each of them. -/
def OrderBook.matchEmissions (book : OrderBook) (command : OrderCommandRecordV1) :
    List Emission :=
  levelEmissions command (incomingSide command).opposite book.levels
    (book.levels (incomingSide command).opposite) (book.matchVars command)

/-- The emission of `OrderBook.settleIncoming`. -/
def OrderBook.settleEmission (book : OrderBook) (command : OrderCommandRecordV1)
    (incomingRemaining : Int64) : Emission :=
  if incomingRemaining = 0 then
    book.emission command
      (emitOrderEvent book.counters command .orderFullyFilled command.quantityLots 0).1
  else
    let book := book.restOrder command incomingRemaining
    book.emission command
      (emitOrderEvent book.counters command
        (if incomingRemaining ≠ command.quantityLots then .orderPartiallyFilled else .orderRested)
        (command.quantityLots - incomingRemaining) incomingRemaining).1
      [(command.quantityLots, incomingRemaining)]

/-- The emissions of `OrderBook.acceptNewOrder`. -/
def OrderBook.acceptEmissions (book : OrderBook) (command : OrderCommandRecordV1) :
    List Emission :=
  let accepted := book.acceptIncoming command
  let matched := accepted.2.matchIncoming command
  accepted.2.emission command accepted.1 :: accepted.2.matchEmissions command ++
    [matched.2.2.settleEmission command matched.1]

/-- The emissions of `OrderBook.applyNewOrder`. -/
def OrderBook.newOrderEmissions (book : OrderBook) (command : OrderCommandRecordV1) :
    List Emission :=
  if book.validateNewOrder command ≠ .none then
    book.rejectEmissions command (book.validateNewOrder command)
  else book.acceptEmissions command

/-- The emission of a cancellation: the order is already gone. -/
def OrderBook.cancelEmission (book : OrderBook) (command : OrderCommandRecordV1)
    (restingOrder : RestingOrder) : Emission :=
  let book := book.removeCancelledOrder restingOrder
  book.emission command (emitCancelEvent book.counters command restingOrder).1

/-- The emissions of `OrderBook.applyCancelOrder`. -/
def OrderBook.cancelOrderEmissions (book : OrderBook) (command : OrderCommandRecordV1) :
    List Emission :=
  if decodeCommandType command.commandType ≠ some .cancelOrder then
    book.rejectEmissions command .unsupportedCommand
  else
    match book.findOrder command.orderId with
    | none => book.rejectEmissions command .unknownOrderId
    | some restingOrder =>
        if restingOrder.instrumentId ≠ command.instrumentId then
          book.rejectEmissions command .instrumentMismatch
        else [book.cancelEmission command restingOrder]

/-- The book after the old order of a replacement was cancelled. -/
def OrderBook.cancelled (book : OrderBook) (command : OrderCommandRecordV1)
    (restingOrder : RestingOrder) : OrderBook :=
  let book := book.removeCancelledOrder restingOrder
  { book with counters := (emitCancelEvent book.counters command restingOrder).2 }

/-- The emissions of `OrderBook.applyReplaceOrder`. -/
def OrderBook.replaceOrderEmissions (book : OrderBook) (command : OrderCommandRecordV1) :
    List Emission :=
  if book.validateReplaceOrder command ≠ .none then
    book.rejectEmissions command (book.validateReplaceOrder command)
  else
    match book.findOrder command.orderId with
    | some restingOrder =>
        book.cancelEmission command restingOrder ::
          (book.cancelled command restingOrder).newOrderEmissions
            (replacementNewOrderCommand command)
    | none => []

/-- The emissions of a command, in the order of its events. -/
def OrderBook.emissions (book : OrderBook) (command : OrderCommandRecordV1) : List Emission :=
  match decodeCommandType command.commandType with
  | none => book.rejectEmissions command .unsupportedCommand
  | some .newOrder => book.newOrderEmissions command
  | some .cancelOrder => book.cancelOrderEmissions command
  | some .replaceOrder => book.replaceOrderEmissions command

/-! ## The recorded events are the emitted ones -/

theorem queueEmissions_events (command : OrderCommandRecordV1) (contra : Side)
    (levels : Side → List PriceLevel) (priceTicks : Int64) (worse : List PriceLevel)
    (queue : List RestingOrder) (vars : MatchVars) :
    (queueEmissions command contra levels priceTicks worse queue vars).map Emission.event =
      (matchQueue command priceTicks queue vars).events := by
  induction queue generalizing vars with
  | nil => rfl
  | cons restingOrder rest ih =>
    simp only [queueEmissions, matchQueue]
    split
    · split
      · simp only [List.map_cons, ih]
        rfl
      · rfl
    · rfl

theorem levelEmissions_events (command : OrderCommandRecordV1) (contra : Side)
    (levels : Side → List PriceLevel) (own : List PriceLevel) (vars : MatchVars) :
    (levelEmissions command contra levels own vars).map Emission.event =
      (matchLevels command contra own vars).events := by
  induction own generalizing vars with
  | nil => rfl
  | cons level worse ih =>
    obtain ⟨price, queue⟩ := level
    simp only [levelEmissions, matchLevels]
    split
    · split
      · rfl
      · split
        · simp only [List.map_append, queueEmissions_events, ih]
        · simp only [List.append_nil, queueEmissions_events]
    · rfl

theorem OrderBook.matchEmissions_events (book : OrderBook) (command : OrderCommandRecordV1) :
    (book.matchEmissions command).map Emission.event = (book.matchIncoming command).2.1 := by
  unfold matchEmissions matchIncoming incomingSide
  split
  · exact levelEmissions_events command .sell _ _ _
  · exact levelEmissions_events command .buy _ _ _

theorem OrderBook.settleEmission_event (book : OrderBook) (command : OrderCommandRecordV1)
    (incomingRemaining : Int64) :
    [(book.settleEmission command incomingRemaining).event] =
      (book.settleIncoming command incomingRemaining).1 := by
  unfold settleEmission settleIncoming
  split <;> rfl

theorem OrderBook.acceptEmissions_events (book : OrderBook) (command : OrderCommandRecordV1) :
    (book.acceptEmissions command).map Emission.event = (book.acceptNewOrder command).1 := by
  simp only [acceptEmissions, acceptNewOrder, List.map_append, List.map_cons, List.map_nil,
    matchEmissions_events, settleEmission_event]
  rfl

theorem OrderBook.newOrderEmissions_events (book : OrderBook) (command : OrderCommandRecordV1) :
    (book.newOrderEmissions command).map Emission.event = (book.applyNewOrder command).1 := by
  simp only [newOrderEmissions, applyNewOrder]
  split
  · rfl
  · exact acceptEmissions_events book command

/-- Forgetting the recorded books of a command's emissions leaves its events. -/
theorem OrderBook.emissions_events (book : OrderBook) (command : OrderCommandRecordV1) :
    (book.emissions command).map Emission.event = (book.dispatch command).1 := by
  simp only [emissions, dispatch]
  cases htype : decodeCommandType command.commandType with
  | none => rfl
  | some t =>
    cases t with
    | newOrder => exact newOrderEmissions_events book command
    | cancelOrder =>
      simp only [cancelOrderEmissions, applyCancelOrder]
      by_cases hkind : decodeCommandType command.commandType ≠ some .cancelOrder
      · simp only [if_pos hkind]
        rfl
      · cases hfind : book.findOrder command.orderId with
        | none =>
          simp only [if_neg hkind]
          rfl
        | some restingOrder =>
          by_cases hinstrument : restingOrder.instrumentId ≠ command.instrumentId
          · simp only [if_neg hkind, if_pos hinstrument]
            rfl
          · simp only [if_neg hkind, if_neg hinstrument]
            rfl
    | replaceOrder =>
      simp only [replaceOrderEmissions, applyReplaceOrder]
      by_cases hvalid : book.validateReplaceOrder command ≠ .none
      · simp only [if_pos hvalid]
        rfl
      · cases hfind : book.findOrder command.orderId with
        | none =>
          simp only [if_neg hvalid]
          rfl
        | some restingOrder =>
          simp only [if_neg hvalid, List.map_cons, newOrderEmissions_events]
          rfl

/-- The engine as a machine that answers commands with emissions. -/
def emissionMachine : Machine InstrumentEngine OrderCommandRecordV1 Emission where
  step engine command := (engine.orderBook.emissions command, (engine.apply command).2)

/-- The emissions of a list of commands. -/
def InstrumentEngine.emissionsAll (engine : InstrumentEngine)
    (commands : List OrderCommandRecordV1) : List Emission :=
  (emissionMachine.run engine commands).1

/-- The emissions of a run show its events, and the engine is the same. -/
theorem InstrumentEngine.emissionMachine_run (engine : InstrumentEngine)
    (commands : List OrderCommandRecordV1) :
    engine.applyAll commands =
      ((engine.emissionsAll commands).map Emission.event,
        (emissionMachine.run engine commands).2) := by
  have hmachine : engineMachine = emissionMachine.mapOutputs Emission.event := by
    unfold engineMachine emissionMachine Machine.mapOutputs InstrumentEngine.apply
    simp only [OrderBook.emissions_events]
  unfold applyAll
  rw [hmachine, emissionMachine.run_mapOutputs]
  rfl

/-- The emissions of a run show its events. -/
theorem InstrumentEngine.emissionsAll_events (engine : InstrumentEngine)
    (commands : List OrderCommandRecordV1) :
    (engine.emissionsAll commands).map Emission.event = (engine.applyAll commands).1 := by
  rw [emissionMachine_run]

/-- One more command appends its emissions. -/
theorem InstrumentEngine.emissionsAll_concat (engine : InstrumentEngine)
    (commands : List OrderCommandRecordV1) (command : OrderCommandRecordV1) :
    engine.emissionsAll (commands ++ [command]) =
      engine.emissionsAll commands ++
        (engine.applyAll commands).2.orderBook.emissions command := by
  rw [emissionMachine_run, emissionsAll, emissionMachine.run_concat]
  rfl

/-! ## The recorded commands -/

/-- The inner loop emits trades of the command. -/
theorem fill_of_mem_queueEmissions {command : OrderCommandRecordV1} {contra : Side}
    {levels : Side → List PriceLevel} {priceTicks : Int64} {worse : List PriceLevel}
    {queue : List RestingOrder} {vars : MatchVars} {e : Emission}
    (he : e ∈ queueEmissions command contra levels priceTicks worse queue vars) :
    ∃ restingOrder rest vars',
      e = fillEmission command contra levels priceTicks restingOrder rest worse vars' := by
  induction queue generalizing vars with
  | nil => cases he
  | cons restingOrder rest ih =>
    simp only [queueEmissions] at he
    split at he
    · rcases List.mem_cons.mp he with rfl | he
      · exact ⟨_, _, _, rfl⟩
      · split at he
        · exact ih he
        · cases he
    · cases he

/-- The outer loop emits trades of the command. -/
theorem fill_of_mem_levelEmissions {command : OrderCommandRecordV1} {contra : Side}
    {levels : Side → List PriceLevel} {own : List PriceLevel} {vars : MatchVars} {e : Emission}
    (he : e ∈ levelEmissions command contra levels own vars) :
    ∃ priceTicks restingOrder rest worse vars',
      e = fillEmission command contra levels priceTicks restingOrder rest worse vars' := by
  induction own generalizing vars with
  | nil => cases he
  | cons level worse ih =>
    simp only [levelEmissions] at he
    split at he
    · split at he
      · cases he
      · rcases List.mem_append.mp he with he | he
        · exact ⟨_, (fill_of_mem_queueEmissions he).imp fun _ h => h.imp fun _ h => ⟨_, h⟩⟩
        · split at he
          · exact ih he
          · cases he
    · cases he

theorem levelEmissions_command {command : OrderCommandRecordV1} {contra : Side}
    {levels : Side → List PriceLevel} {own : List PriceLevel} {vars : MatchVars} {e : Emission}
    (he : e ∈ levelEmissions command contra levels own vars) : e.command = command := by
  obtain ⟨_, _, _, _, _, rfl⟩ := fill_of_mem_levelEmissions he
  rfl

theorem levelEmissions_isTrade {command : OrderCommandRecordV1} {contra : Side}
    {levels : Side → List PriceLevel} {own : List PriceLevel} {vars : MatchVars} {e : Emission}
    (he : e ∈ levelEmissions command contra levels own vars) : e.event.IsTrade := by
  obtain ⟨_, _, _, _, _, rfl⟩ := fill_of_mem_levelEmissions he
  rfl

theorem OrderBook.newOrderEmissions_command {book : OrderBook} {command : OrderCommandRecordV1}
    {e : Emission} (he : e ∈ book.newOrderEmissions command) : e.command = command := by
  unfold newOrderEmissions at he
  split at he
  · rw [List.mem_singleton.mp he]
    rfl
  · simp only [acceptEmissions, List.cons_append, List.mem_cons, List.mem_append,
      List.not_mem_nil, or_false] at he
    rcases he with rfl | he | rfl
    · rfl
    · exact levelEmissions_command he
    · unfold settleEmission
      split <;> rfl

theorem OrderBook.rejectEmissions_command {book : OrderBook} {command : OrderCommandRecordV1}
    {reason : RejectionReason} {e : Emission} (he : e ∈ book.rejectEmissions command reason) :
    e.command = command := by
  rw [List.mem_singleton.mp he]
  rfl

theorem OrderBook.cancelOrderEmissions_command {book : OrderBook} {command : OrderCommandRecordV1}
    {e : Emission} (he : e ∈ book.cancelOrderEmissions command) : e.command = command := by
  unfold cancelOrderEmissions at he
  split at he
  · exact rejectEmissions_command he
  · split at he
    · exact rejectEmissions_command he
    · split at he
      · exact rejectEmissions_command he
      · rw [List.mem_singleton.mp he]
        rfl

/-- A command is executed as itself, except that a replacement ends as a new order. -/
theorem OrderBook.emissions_command {book : OrderBook} {command : OrderCommandRecordV1}
    {e : Emission} (he : e ∈ book.emissions command) :
    e.command = command ∨ e.command = replacementNewOrderCommand command := by
  unfold emissions at he
  split at he
  · exact Or.inl (rejectEmissions_command he)
  · exact Or.inl (newOrderEmissions_command he)
  · exact Or.inl (cancelOrderEmissions_command he)
  · unfold replaceOrderEmissions at he
    split at he
    · exact Or.inl (rejectEmissions_command he)
    · split at he
      · rcases List.mem_cons.mp he with rfl | he
        · exact Or.inl rfl
        · exact Or.inr (newOrderEmissions_command he)
      · cases he

end MatchingEngine
