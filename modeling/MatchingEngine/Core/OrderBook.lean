import Mathlib.Data.Finmap
import MatchingEngine.Domain
import MatchingEngine.Library.FixedWidth
import MatchingEngine.Library.OrderedMap

/-!
# The order book

The data and operations of `core/order_book.hpp` and `core/order_book.cpp`. The
price maps are ordered association lists, the queues are lists whose head is the
front, and the active index is a finite map. Member functions that change the
book return the changed book next to their result. Signed subtraction wraps here;
that it never has to is a theorem about reachable books.
-/

namespace MatchingEngine

/-- `OrderBook::RestingOrder`. -/
structure RestingOrder where
  orderId : UInt64 := 0
  clientId : UInt64 := 0
  instrumentId : UInt32 := 0
  side : UInt16 := 0
  priceTicks : Int64 := 0
  remainingQuantityLots : Int64 := 0
  deriving DecidableEq

/-- The key order of the price map of a side: `std::greater` for bids and
`std::less` for asks, so the first price is the best one. -/
def Side.Better : Side → Int64 → Int64 → Prop
  | .buy, p, q => q < p
  | .sell, p, q => p < q

instance (s : Side) : DecidableRel s.Better := fun p q =>
  match s with
  | .buy => inferInstanceAs (Decidable (q < p))
  | .sell => inferInstanceAs (Decidable (p < q))

instance (s : Side) : IsStrictTotalOrder Int64 s.Better where
  irrefl p := by cases s <;> exact lt_irrefl p
  trans p q r hpq hqr := by
    cases s
    · exact lt_trans hqr hpq
    · exact lt_trans hpq hqr
  trichotomous p q hpq hqp := by
    cases s
    · exact le_antisymm (not_lt.mp hpq) (not_lt.mp hqp)
    · exact le_antisymm (not_lt.mp hqp) (not_lt.mp hpq)

/-- One price with its queue of resting orders, front first. -/
abbrev PriceLevel := Int64 × List RestingOrder

/-- The price map of a side. -/
abbrev PriceLevels (s : Side) := OrderedMap s.Better (List RestingOrder)

/-- The index of the active orders by order id. -/
abbrev ActiveOrders := Finmap (fun _ : UInt64 => RestingOrder)

/-- The two numbers that emitting an event allocates. -/
structure EmissionCounters where
  nextEventSequence : UInt64 := 1
  nextTradeId : UInt64 := 1
  deriving DecidableEq

/-- `core::OrderBook`. -/
structure OrderBook where
  instrumentId : Option UInt32
  counters : EmissionCounters
  bids : PriceLevels .buy
  asks : PriceLevels .sell
  activeOrders : ActiveOrders

/-- The constructor of `OrderBook`. -/
def OrderBook.create (firstEventSequence : UInt64 := 1) : OrderBook where
  instrumentId := none
  counters := { nextEventSequence := firstEventSequence }
  bids := OrderedMap.empty
  asks := OrderedMap.empty
  activeOrders := ∅

/-! ## Emitting events -/

/-- `OrderBook::emit_order_event`. -/
def emitOrderEvent (counters : EmissionCounters) (command : OrderCommandRecordV1)
    (eventType : ExecutionEventType) (quantityLots remainingQuantityLots : Int64) :
    ExecutionEventRecordV1 × EmissionCounters :=
  ({ eventSequence := counters.nextEventSequence
     commandSequence := command.commandSequence
     sourceIngressEpoch := command.sourceIngressEpoch
     sourceIngressSequence := command.sourceIngressSequence
     orderId := command.orderId
     priceTicks := command.priceTicks
     quantityLots := quantityLots
     remainingQuantityLots := remainingQuantityLots
     instrumentId := command.instrumentId
     eventType := eventType.code
     side := command.side },
    { counters with nextEventSequence := counters.nextEventSequence + 1 })

/-- `OrderBook::emit_trade_event`. -/
def emitTradeEvent (counters : EmissionCounters) (command : OrderCommandRecordV1)
    (restingOrder : RestingOrder)
    (tradePriceTicks tradeQuantityLots incomingRemainingLots : Int64) :
    ExecutionEventRecordV1 × EmissionCounters :=
  let emitted :=
    emitOrderEvent counters command .tradeExecuted tradeQuantityLots incomingRemainingLots
  ({ emitted.1 with
     contraOrderId := restingOrder.orderId
     tradeId := emitted.2.nextTradeId
     priceTicks := tradePriceTicks },
    { emitted.2 with nextTradeId := emitted.2.nextTradeId + 1 })

/-- `OrderBook::emit_rejection_event`. -/
def emitRejectionEvent (counters : EmissionCounters) (command : OrderCommandRecordV1)
    (reason : RejectionReason) : ExecutionEventRecordV1 × EmissionCounters :=
  let emitted := emitOrderEvent counters command .orderRejected 0 0
  ({ emitted.1 with rejectionReason := reason.code }, emitted.2)

/-- `OrderBook::emit_cancel_event`. -/
def emitCancelEvent (counters : EmissionCounters) (command : OrderCommandRecordV1)
    (restingOrder : RestingOrder) : ExecutionEventRecordV1 × EmissionCounters :=
  let emitted :=
    emitOrderEvent counters command .orderCancelled 0 restingOrder.remainingQuantityLots
  ({ emitted.1 with
     priceTicks := restingOrder.priceTicks
     side := restingOrder.side
     instrumentId := restingOrder.instrumentId },
    emitted.2)

/-! ## Matching -/

/-- What the matching loops write besides the queues. -/
structure MatchVars where
  incomingRemaining : Int64
  activeOrders : ActiveOrders
  counters : EmissionCounters

/-- What one iteration of the inner matching loop computes before it looks at
the front order again. -/
structure Fill where
  restingOrder : RestingOrder
  vars : MatchVars
  event : ExecutionEventRecordV1

/-- The body of the inner matching loop up to the emitted trade. -/
def fillFront (command : OrderCommandRecordV1) (priceTicks : Int64) (restingOrder : RestingOrder)
    (vars : MatchVars) : Fill :=
  let tradeQuantityLots := min vars.incomingRemaining restingOrder.remainingQuantityLots
  let incomingRemaining := vars.incomingRemaining - tradeQuantityLots
  let reduced := { restingOrder with
    remainingQuantityLots := restingOrder.remainingQuantityLots - tradeQuantityLots }
  let emitted :=
    emitTradeEvent vars.counters command reduced priceTicks tradeQuantityLots incomingRemaining
  { restingOrder := reduced
    vars :=
      { incomingRemaining := incomingRemaining
        activeOrders := vars.activeOrders.insert reduced.orderId reduced
        counters := emitted.2 }
    event := emitted.1 }

/-- The loop variables after the front order was used up. -/
def MatchVars.dropOrder (vars : MatchVars) (orderId : UInt64) : MatchVars :=
  { vars with activeOrders := vars.activeOrders.erase orderId }

/-- What a matching loop leaves of its queue or price map, with the loop
variables and the trades it emitted. -/
structure MatchResult (α : Type) where
  left : α
  vars : MatchVars
  events : List ExecutionEventRecordV1

/-- The inner matching loop. A front order that keeps a quantity has absorbed the
whole incoming quantity, so the loop condition fails and the loop ends there. -/
def matchQueue (command : OrderCommandRecordV1) (priceTicks : Int64) :
    List RestingOrder → MatchVars → MatchResult (List RestingOrder)
  | [], vars => ⟨[], vars, []⟩
  | restingOrder :: rest, vars =>
      if 0 < vars.incomingRemaining then
        let fill := fillFront command priceTicks restingOrder vars
        if fill.restingOrder.remainingQuantityLots = 0 then
          let next := matchQueue command priceTicks rest
            (fill.vars.dropOrder fill.restingOrder.orderId)
          { next with events := fill.event :: next.events }
        else ⟨fill.restingOrder :: rest, fill.vars, [fill.event]⟩
      else ⟨restingOrder :: rest, vars, []⟩

/-- The outer matching loop over the price map of the given contra side. A level
that keeps an order ends the inner loop with no incoming quantity left, so the
outer loop ends as well. -/
def matchLevels (command : OrderCommandRecordV1) (contra : Side) :
    List PriceLevel → MatchVars → MatchResult (List PriceLevel)
  | [], vars => ⟨[], vars, []⟩
  | (bestPriceTicks, restingOrders) :: levels, vars =>
      if 0 < vars.incomingRemaining then
        if contra.Better command.priceTicks bestPriceTicks then
          ⟨(bestPriceTicks, restingOrders) :: levels, vars, []⟩
        else
          let inner := matchQueue command bestPriceTicks restingOrders vars
          if inner.left.isEmpty then
            let next := matchLevels command contra levels inner.vars
            { next with events := inner.events ++ next.events }
          else ⟨(bestPriceTicks, inner.left) :: levels, inner.vars, inner.events⟩
      else ⟨(bestPriceTicks, restingOrders) :: levels, vars, []⟩

/-- Matching keeps a suffix of the prices. -/
theorem matchLevels_keys_suffix (command : OrderCommandRecordV1) (contra : Side)
    (levels : List PriceLevel) (vars : MatchVars) :
    ((matchLevels command contra levels vars).left.map Prod.fst) <:+ levels.map Prod.fst := by
  induction levels generalizing vars with
  | nil => exact List.suffix_rfl
  | cons level levels ih =>
    obtain ⟨price, queue⟩ := level
    simp only [matchLevels]
    split
    · split
      · exact List.suffix_rfl
      · split
        · exact (ih _).trans (List.suffix_cons _ _)
        · exact List.suffix_rfl
    · exact List.suffix_rfl

/-- The outer loop on a whole price map. -/
def matchAgainst (command : OrderCommandRecordV1) {contra : Side} (levels : PriceLevels contra)
    (vars : MatchVars) : MatchResult (PriceLevels contra) :=
  let result := matchLevels command contra levels.entries vars
  { left := ⟨result.left, levels.sorted_of_keys_sublist
      (matchLevels_keys_suffix command contra levels.entries vars).sublist⟩
    vars := result.vars
    events := result.events }

/-- The loop variables at the start of a matching loop. -/
def OrderBook.matchVars (book : OrderBook) (command : OrderCommandRecordV1) : MatchVars where
  incomingRemaining := command.quantityLots
  activeOrders := book.activeOrders
  counters := book.counters

/-- `OrderBook::match_buy_order_against_asks`: the incoming quantity left over,
the trades, and the book. -/
def OrderBook.matchBuyOrderAgainstAsks (book : OrderBook) (command : OrderCommandRecordV1) :
    Int64 × List ExecutionEventRecordV1 × OrderBook :=
  let result := matchAgainst command book.asks (book.matchVars command)
  (result.vars.incomingRemaining, result.events,
    { book with
      asks := result.left
      activeOrders := result.vars.activeOrders
      counters := result.vars.counters })

/-- `OrderBook::match_sell_order_against_bids`: the incoming quantity left over,
the trades, and the book. -/
def OrderBook.matchSellOrderAgainstBids (book : OrderBook) (command : OrderCommandRecordV1) :
    Int64 × List ExecutionEventRecordV1 × OrderBook :=
  let result := matchAgainst command book.bids (book.matchVars command)
  (result.vars.incomingRemaining, result.events,
    { book with
      bids := result.left
      activeOrders := result.vars.activeOrders
      counters := result.vars.counters })

/-! ## Validation -/

/-- `OrderBook::has_order`. -/
def OrderBook.hasOrder (book : OrderBook) (orderId : UInt64) : Bool :=
  decide (orderId ∈ book.activeOrders)

/-- `OrderBook::find_order`. -/
def OrderBook.findOrder (book : OrderBook) (orderId : UInt64) : Option RestingOrder :=
  book.activeOrders.lookup orderId

/-- `OrderBook::validate_order_book_instrument`. -/
def OrderBook.validateOrderBookInstrument (book : OrderBook) (command : OrderCommandRecordV1) :
    RejectionReason :=
  match book.instrumentId with
  | some instrumentId =>
      if command.instrumentId ≠ instrumentId then .instrumentMismatch else .none
  | none => .none

/-- `OrderBook::validate_new_order`. -/
def OrderBook.validateNewOrder (book : OrderBook) (command : OrderCommandRecordV1) :
    RejectionReason :=
  if decodeCommandType command.commandType ≠ some .newOrder then .unsupportedCommand
  else if decodeSide command.side = none then .invalidSide
  else if command.priceTicks ≤ 0 then .invalidPrice
  else if command.quantityLots ≤ 0 then .invalidQuantity
  else if command.orderId ∈ book.activeOrders then .duplicateOrderId
  else if book.validateOrderBookInstrument command ≠ .none then
    book.validateOrderBookInstrument command
  else if decodeTimeInForce command ≠ some .gtc then .unsupportedTimeInForce
  else .none

/-- `OrderBook::validate_replace_order`. -/
def OrderBook.validateReplaceOrder (book : OrderBook) (command : OrderCommandRecordV1) :
    RejectionReason :=
  if decodeCommandType command.commandType ≠ some .replaceOrder then .unsupportedCommand
  else
    match book.findOrder command.orderId with
    | none => .unknownOrderId
    | some restingOrder =>
        if restingOrder.instrumentId ≠ command.instrumentId then .instrumentMismatch
        else if command.replacementOrderId = 0 ∨ command.replacementOrderId = command.orderId then
          .invalidReplacementOrderId
        else if command.replacementOrderId ∈ book.activeOrders then .replaceWouldDuplicateOrderId
        else if decodeSide command.side = none then .invalidSide
        else if command.priceTicks ≤ 0 then .invalidPrice
        else if command.quantityLots ≤ 0 then .invalidQuantity
        else if decodeTimeInForce command ≠ some .gtc then .unsupportedTimeInForce
        else .none

/-! ## Changing the book -/

/-- `OrderBook::bind_instrument_if_needed`. -/
def OrderBook.bindInstrumentIfNeeded (book : OrderBook) (instrumentId : UInt32) : OrderBook :=
  match book.instrumentId with
  | some _ => book
  | none => { book with instrumentId := some instrumentId }

/-- The resting order `rest_order` builds from a command. -/
def restingOrderOf (command : OrderCommandRecordV1) (remainingQuantityLots : Int64) :
    RestingOrder where
  orderId := command.orderId
  clientId := command.clientId
  instrumentId := command.instrumentId
  side := command.side
  priceTicks := command.priceTicks
  remainingQuantityLots := remainingQuantityLots

/-- `OrderBook::rest_order`. -/
def OrderBook.restOrder (book : OrderBook) (command : OrderCommandRecordV1)
    (remainingQuantityLots : Int64) : OrderBook :=
  let restingOrder := restingOrderOf command remainingQuantityLots
  let book :=
    if decodeSide command.side = some .buy then
      { book with bids := book.bids.upsert command.priceTicks [] (· ++ [restingOrder]) }
    else
      { book with asks := book.asks.upsert command.priceTicks [] (· ++ [restingOrder]) }
  { book with activeOrders := book.activeOrders.insert command.orderId restingOrder }

/-- `OrderBook::erase_order_from_price_levels`. -/
def eraseOrderFromPriceLevels {s : Side} (levels : PriceLevels s) (restingOrder : RestingOrder) :
    PriceLevels s :=
  match levels.find? restingOrder.priceTicks with
  | none => levels
  | some restingOrders =>
      let restingOrders := restingOrders.eraseP (fun order => order.orderId = restingOrder.orderId)
      if restingOrders.isEmpty then levels.erase restingOrder.priceTicks
      else levels.insert restingOrder.priceTicks restingOrders

/-- `OrderBook::remove_cancelled_order`. -/
def OrderBook.removeCancelledOrder (book : OrderBook) (restingOrder : RestingOrder) : OrderBook :=
  let book :=
    if decodeSide restingOrder.side = some .buy then
      { book with bids := eraseOrderFromPriceLevels book.bids restingOrder }
    else { book with asks := eraseOrderFromPriceLevels book.asks restingOrder }
  { book with activeOrders := book.activeOrders.erase restingOrder.orderId }

/-! ## The commands -/

/-- `OrderBook::reject_unsupported_command` and the rejection exits of the other
commands: one event, and only the event counter moves. -/
def OrderBook.reject (book : OrderBook) (command : OrderCommandRecordV1)
    (reason : RejectionReason) : List ExecutionEventRecordV1 × OrderBook :=
  let emitted := emitRejectionEvent book.counters command reason
  ([emitted.1], { book with counters := emitted.2 })

/-- The choice of the matching loop in `OrderBook::apply_new_order`. -/
def OrderBook.matchIncoming (book : OrderBook) (command : OrderCommandRecordV1) :
    Int64 × List ExecutionEventRecordV1 × OrderBook :=
  if decodeSide command.side = some .buy then book.matchBuyOrderAgainstAsks command
  else book.matchSellOrderAgainstBids command

/-- The end of `OrderBook::apply_new_order`: announce the complete fill, or rest
what is left and announce that. -/
def OrderBook.settleIncoming (book : OrderBook) (command : OrderCommandRecordV1)
    (incomingRemaining : Int64) : List ExecutionEventRecordV1 × OrderBook :=
  if incomingRemaining = 0 then
    let filled := emitOrderEvent book.counters command .orderFullyFilled command.quantityLots 0
    ([filled.1], { book with counters := filled.2 })
  else
    let book := book.restOrder command incomingRemaining
    let rested := emitOrderEvent book.counters command
      (if incomingRemaining ≠ command.quantityLots then .orderPartiallyFilled else .orderRested)
      (command.quantityLots - incomingRemaining) incomingRemaining
    ([rested.1], { book with counters := rested.2 })

/-- The book and the event with which `OrderBook::apply_new_order` starts to match. -/
def OrderBook.acceptIncoming (book : OrderBook) (command : OrderCommandRecordV1) :
    ExecutionEventRecordV1 × OrderBook :=
  let book := book.bindInstrumentIfNeeded command.instrumentId
  let accepted := emitOrderEvent book.counters command .orderAccepted command.quantityLots
    command.quantityLots
  (accepted.1, { book with counters := accepted.2 })

/-- The part of `OrderBook::apply_new_order` that follows a successful validation. -/
def OrderBook.acceptNewOrder (book : OrderBook) (command : OrderCommandRecordV1) :
    List ExecutionEventRecordV1 × OrderBook :=
  let accepted := book.acceptIncoming command
  let matched := accepted.2.matchIncoming command
  let settled := matched.2.2.settleIncoming command matched.1
  (accepted.1 :: matched.2.1 ++ settled.1, settled.2)

/-- `OrderBook::apply_new_order`. -/
def OrderBook.applyNewOrder (book : OrderBook) (command : OrderCommandRecordV1) :
    List ExecutionEventRecordV1 × OrderBook :=
  if book.validateNewOrder command ≠ .none then
    book.reject command (book.validateNewOrder command)
  else book.acceptNewOrder command

/-- `OrderBook::apply_cancel_order`. -/
def OrderBook.applyCancelOrder (book : OrderBook) (command : OrderCommandRecordV1) :
    List ExecutionEventRecordV1 × OrderBook :=
  if decodeCommandType command.commandType ≠ some .cancelOrder then
    book.reject command .unsupportedCommand
  else
    match book.findOrder command.orderId with
    | none => book.reject command .unknownOrderId
    | some restingOrder =>
        if restingOrder.instrumentId ≠ command.instrumentId then
          book.reject command .instrumentMismatch
        else
          let book := book.removeCancelledOrder restingOrder
          let emitted := emitCancelEvent book.counters command restingOrder
          ([emitted.1], { book with counters := emitted.2 })

/-- The new-order command `apply_replace_order` derives from a replace command. -/
def replacementNewOrderCommand (command : OrderCommandRecordV1) : OrderCommandRecordV1 :=
  { command with
    commandType := CommandType.newOrder.code
    orderId := command.replacementOrderId }

/-- `OrderBook::apply_replace_order`. The validation has already found the order,
so the last branch, where the source would dereference an empty optional, is dead. -/
def OrderBook.applyReplaceOrder (book : OrderBook) (command : OrderCommandRecordV1) :
    List ExecutionEventRecordV1 × OrderBook :=
  if book.validateReplaceOrder command ≠ .none then
    book.reject command (book.validateReplaceOrder command)
  else
    match book.findOrder command.orderId with
    | some restingOrder =>
        let book := book.removeCancelledOrder restingOrder
        let emitted := emitCancelEvent book.counters command restingOrder
        let book := { book with counters := emitted.2 }
        let replacement := book.applyNewOrder (replacementNewOrderCommand command)
        (emitted.1 :: replacement.1, replacement.2)
    | none => ([], book)

/-! ## Queries -/

/-- `OrderBook::best_bid_price`. -/
def OrderBook.bestBidPrice (book : OrderBook) : Int64 :=
  match book.bids.entries with
  | [] => 0
  | level :: _ => level.1

/-- `OrderBook::best_ask_price`. -/
def OrderBook.bestAskPrice (book : OrderBook) : Int64 :=
  match book.asks.entries with
  | [] => 0
  | level :: _ => level.1

/-- `OrderBook::remaining_quantity`. -/
def OrderBook.remainingQuantity (book : OrderBook) (orderId : UInt64) : Int64 :=
  match book.activeOrders.lookup orderId with
  | none => 0
  | some restingOrder => restingOrder.remainingQuantityLots

/-- `OrderBook::active_order_count`. -/
def OrderBook.activeOrderCount (book : OrderBook) : ℕ := book.activeOrders.keys.card

/-- `OrderBook::snapshot`. -/
def OrderBook.snapshot (book : OrderBook) : String :=
  "active_orders=" ++ toString book.activeOrderCount
    ++ " best_bid=" ++ toString book.bestBidPrice
    ++ " best_ask=" ++ toString book.bestAskPrice

/-- `OrderBook::validate_resting_order_against_active_index`. The set of queued
ids is threaded through; no result stands for `false`. -/
def OrderBook.validateRestingOrderAgainstActiveIndex (book : OrderBook)
    (restingOrder : RestingOrder) (priceTicks : Int64) (expectedSide : Side)
    (queuedOrderIds : Finset UInt64) : Option (Finset UInt64) :=
  if decodeSide restingOrder.side ≠ some expectedSide
      ∨ restingOrder.priceTicks ≠ priceTicks
      ∨ restingOrder.remainingQuantityLots ≤ 0
      ∨ restingOrder.orderId ∈ queuedOrderIds then none
  else
    match book.activeOrders.lookup restingOrder.orderId with
    | none => none
    | some activeOrder =>
        if activeOrder.clientId = restingOrder.clientId
            ∧ activeOrder.instrumentId = restingOrder.instrumentId
            ∧ activeOrder.side = restingOrder.side
            ∧ activeOrder.priceTicks = restingOrder.priceTicks
            ∧ activeOrder.remainingQuantityLots = restingOrder.remainingQuantityLots then
          some (insert restingOrder.orderId queuedOrderIds)
        else none

/-- The loop of `validate_price_levels_against_active_orders` over one queue. -/
def OrderBook.validateQueue (book : OrderBook) (priceTicks : Int64) (expectedSide : Side) :
    List RestingOrder → Finset UInt64 → Option (Finset UInt64)
  | [], queuedOrderIds => some queuedOrderIds
  | restingOrder :: rest, queuedOrderIds =>
      (book.validateRestingOrderAgainstActiveIndex restingOrder priceTicks expectedSide
        queuedOrderIds).bind (book.validateQueue priceTicks expectedSide rest)

/-- `OrderBook::validate_price_levels_against_active_orders`, whose two overloads
differ in the type of the map only. -/
def OrderBook.validatePriceLevelsAgainstActiveOrders (book : OrderBook) (expectedSide : Side) :
    List PriceLevel → Finset UInt64 → Option (Finset UInt64)
  | [], queuedOrderIds => some queuedOrderIds
  | (priceTicks, restingOrders) :: levels, queuedOrderIds =>
      if restingOrders.isEmpty ∨ priceTicks ≤ 0 then none
      else
        (book.validateQueue priceTicks expectedSide restingOrders queuedOrderIds).bind
          (book.validatePriceLevelsAgainstActiveOrders expectedSide levels)

/-- `OrderBook::validate_active_orders_are_queued`. -/
def OrderBook.validateActiveOrdersAreQueued (book : OrderBook) (queuedOrderIds : Finset UInt64) :
    Bool :=
  if queuedOrderIds.card ≠ book.activeOrders.keys.card then false
  else
    let refusedOrderIds := book.activeOrders.keys.filter fun orderId =>
      orderId ∉ queuedOrderIds ∨ book.remainingQuantity orderId ≤ 0
    decide (refusedOrderIds = ∅)

/-- The final comparison of `validate_invariants`. -/
def OrderBook.sidesAreUncrossed (book : OrderBook) : Bool :=
  book.bids.entries.isEmpty || book.asks.entries.isEmpty
    || decide (book.bestBidPrice < book.bestAskPrice)

/-- `OrderBook::validate_invariants`. -/
def OrderBook.validateInvariants (book : OrderBook) : Bool :=
  match (book.validatePriceLevelsAgainstActiveOrders .buy book.bids.entries ∅).bind
      (book.validatePriceLevelsAgainstActiveOrders .sell book.asks.entries) with
  | none => false
  | some queuedOrderIds =>
      book.validateActiveOrdersAreQueued queuedOrderIds && book.sidesAreUncrossed

end MatchingEngine
