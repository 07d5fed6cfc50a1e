import Mathlib.Data.Finset.Sort
import MatchingEngine.Core.OrderBook
import MatchingEngine.Library.Machine

/-!
# The market-data projection

`projections/market_data_projection.hpp` and `.cpp`. The projected orders are a
hash map whose iteration order is not specified; every application of an event
takes the order in which the map is visited as an argument. Sums of quantities
wrap like the `int64` additions of the source.
-/

namespace MatchingEngine

/-- `PublicPriceLevel`. -/
structure PublicPriceLevel where
  priceTicks : Int64 := 0
  quantityLots : Int64 := 0
  deriving DecidableEq

/-- `PublicBookView`. -/
structure PublicBookView where
  instrumentId : UInt32 := 0
  bids : List PublicPriceLevel := []
  asks : List PublicPriceLevel := []
  deriving DecidableEq

/-- `PublicTrade`. -/
structure PublicTrade where
  tradeId : UInt64 := 0
  instrumentId : UInt32 := 0
  incomingOrderId : UInt64 := 0
  restingOrderId : UInt64 := 0
  aggressorSide : UInt16 := 0
  priceTicks : Int64 := 0
  quantityLots : Int64 := 0
  deriving DecidableEq

/-- `ProjectionApplyStatus`. -/
inductive ProjectionApplyStatus where
  | applied
  | ignored
  | rejected
  deriving DecidableEq

/-- `ProjectionApplyResult`. -/
structure ProjectionApplyResult where
  status : ProjectionApplyStatus := .rejected
  error : String := ""
  deriving DecidableEq

/-- `MarketDataProjection::OrderState`. -/
structure OrderState where
  instrumentId : UInt32 := 0
  side : UInt16 := 0
  priceTicks : Int64 := 0
  remainingQuantityLots : Int64 := 0
  deriving DecidableEq

/-- The projected orders by id. -/
abbrev ProjectedOrders := Finmap (fun _ : UInt64 => OrderState)

/-- An order in which the entries of the hash map may be visited. -/
structure IterationOrder where
  visit : ProjectedOrders → List (UInt64 × OrderState)
  /-- Every id is visited once. -/
  nodup : ∀ orders, ((visit orders).map Prod.fst).Nodup
  /-- Exactly the entries of the map are visited. -/
  mem_iff : ∀ orders orderId o, (orderId, o) ∈ visit orders ↔ orders.lookup orderId = some o

/-- The entries in the order of their ids. -/
def IterationOrder.byId : IterationOrder where
  visit orders := (orders.keys.sort (· ≤ ·)).filterMap fun orderId =>
    (orders.lookup orderId).map fun o => (orderId, o)
  nodup orders := by
    have hkeys : ∀ ids : List UInt64, ((ids.filterMap fun orderId =>
        (orders.lookup orderId).map fun o => (orderId, o)).map Prod.fst).Sublist ids := by
      intro ids
      induction ids with
      | nil => exact List.Sublist.refl _
      | cons orderId ids ih =>
        cases hlookup : orders.lookup orderId with
        | none => simpa [hlookup] using ih.cons orderId
        | some o => simpa [hlookup] using ih
    exact (Finset.sort_nodup _ _).sublist (hkeys _)
  mem_iff orders orderId o := by
    simp only [List.mem_filterMap, Finset.mem_sort, Finmap.mem_keys, Option.map_eq_some_iff]
    constructor
    · rintro ⟨id, -, o', hlookup, heq⟩
      cases heq
      exact hlookup
    · intro hlookup
      exact ⟨orderId, Finmap.mem_iff.mpr ⟨o, hlookup⟩, o, hlookup, rfl⟩

/-- `projections::MarketDataProjection`. -/
structure MarketDataProjection where
  book : PublicBookView := {}
  trades : List PublicTrade := []
  lastAppliedEventSequence : UInt64 := 0
  activeOrders : ProjectedOrders := ∅

/-- `is_buy`. -/
def isBuy (side : UInt16) : Bool := side = Side.buy.code

/-- `is_sell`. -/
def isSell (side : UInt16) : Bool := side = Side.sell.code

/-- `applied`. -/
def applied : ProjectionApplyResult := { status := .applied }

/-- `ignored`. -/
def ignored : ProjectionApplyResult := { status := .ignored }

/-- `rejected`. -/
def rejected (error : String) : ProjectionApplyResult := { status := .rejected, error := error }

/-! ## Rebuilding the public book -/

/-- The local variables of `rebuild_book`. -/
structure BookSums where
  instrumentId : UInt32
  bids : OrderedMap Side.buy.Better Int64
  asks : OrderedMap Side.sell.Better Int64

/-- One iteration of the first loop of `rebuild_book`. -/
def BookSums.add (sums : BookSums) (entry : UInt64 × OrderState) : BookSums :=
  let activeOrder := entry.2
  let sums := { sums with instrumentId := activeOrder.instrumentId }
  if isBuy activeOrder.side then
    { sums with
      bids := sums.bids.upsert activeOrder.priceTicks 0 (· + activeOrder.remainingQuantityLots) }
  else if isSell activeOrder.side then
    { sums with
      asks := sums.asks.upsert activeOrder.priceTicks 0 (· + activeOrder.remainingQuantityLots) }
  else sums

/-- The last two loops of `rebuild_book`: only positive sums are shown. -/
def publicLevels {s : Side} (levels : OrderedMap s.Better Int64) : List PublicPriceLevel :=
  (levels.entries.filter (fun level => 0 < level.2)).map fun level => ⟨level.1, level.2⟩

/-- `MarketDataProjection::rebuild_book`. -/
def MarketDataProjection.rebuildBook (projection : MarketDataProjection) (order : IterationOrder) :
    MarketDataProjection :=
  let sums := (order.visit projection.activeOrders).foldl BookSums.add
    ⟨0, OrderedMap.empty, OrderedMap.empty⟩
  { projection with
    book :=
      { instrumentId := sums.instrumentId
        bids := publicLevels sums.bids
        asks := publicLevels sums.asks } }

/-! ## Applying events -/

/-- `MarketDataProjection::upsert_order`. -/
def MarketDataProjection.upsertOrder (projection : MarketDataProjection) (order : IterationOrder)
    (orderId : UInt64) (state : OrderState) : ProjectionApplyResult × MarketDataProjection :=
  if orderId = 0 ∨ state.priceTicks ≤ 0 ∨ state.remainingQuantityLots ≤ 0 then
    (rejected "invalid order state for market data projection", projection)
  else
    (applied,
      { projection with
        activeOrders := projection.activeOrders.insert orderId state }.rebuildBook order)

/-- `MarketDataProjection::remove_order`. -/
def MarketDataProjection.removeOrder (projection : MarketDataProjection) (order : IterationOrder)
    (orderId : UInt64) : ProjectionApplyResult × MarketDataProjection :=
  (applied,
    { projection with activeOrders := projection.activeOrders.erase orderId }.rebuildBook order)

/-- `MarketDataProjection::apply_rested`. -/
def MarketDataProjection.applyRested (projection : MarketDataProjection) (order : IterationOrder)
    (event : ExecutionEventRecordV1) : ProjectionApplyResult × MarketDataProjection :=
  if event.remainingQuantityLots ≤ 0 ∨ (¬ isBuy event.side ∧ ¬ isSell event.side) then
    (rejected "resting event does not contain visible liquidity", projection)
  else
    projection.upsertOrder order event.orderId
      { instrumentId := event.instrumentId
        side := event.side
        priceTicks := event.priceTicks
        remainingQuantityLots := event.remainingQuantityLots }

/-- The trade row of an event. -/
def ExecutionEventRecordV1.publicTrade (event : ExecutionEventRecordV1) : PublicTrade where
  tradeId := event.tradeId
  instrumentId := event.instrumentId
  incomingOrderId := event.orderId
  restingOrderId := event.contraOrderId
  aggressorSide := event.side
  priceTicks := event.priceTicks
  quantityLots := event.quantityLots

/-- `MarketDataProjection::apply_trade`. -/
def MarketDataProjection.applyTrade (projection : MarketDataProjection) (order : IterationOrder)
    (event : ExecutionEventRecordV1) : ProjectionApplyResult × MarketDataProjection :=
  if event.quantityLots ≤ 0 ∨ event.contraOrderId = 0 then
    (rejected "trade event is missing quantity or resting order id", projection)
  else
    match projection.activeOrders.lookup event.contraOrderId with
    | none => (rejected "trade references unknown resting order", projection)
    | some restingOrder =>
        if restingOrder.remainingQuantityLots < event.quantityLots then
          (rejected "trade quantity exceeds projected resting quantity", projection)
        else
          let remaining := restingOrder.remainingQuantityLots - event.quantityLots
          (applied,
            { projection with
              trades := projection.trades ++ [event.publicTrade]
              activeOrders :=
                if remaining = 0 then projection.activeOrders.erase event.contraOrderId
                else projection.activeOrders.insert event.contraOrderId
                  { restingOrder with remainingQuantityLots := remaining } }.rebuildBook order)

/-- `MarketDataProjection::apply_cancelled`. -/
def MarketDataProjection.applyCancelled (projection : MarketDataProjection)
    (order : IterationOrder) (event : ExecutionEventRecordV1) :
    ProjectionApplyResult × MarketDataProjection :=
  if event.orderId ∉ projection.activeOrders then
    (rejected "cancel references unknown resting order", projection)
  else projection.removeOrder order event.orderId

/-- `MarketDataProjection::apply_filled`. -/
def MarketDataProjection.applyFilled (projection : MarketDataProjection) (order : IterationOrder)
    (event : ExecutionEventRecordV1) : ProjectionApplyResult × MarketDataProjection :=
  if event.orderId ∉ projection.activeOrders then (ignored, projection)
  else projection.removeOrder order event.orderId

/-- The `switch` of `MarketDataProjection::apply`. -/
def MarketDataProjection.applyByType (projection : MarketDataProjection) (order : IterationOrder)
    (event : ExecutionEventRecordV1) : ProjectionApplyResult × MarketDataProjection :=
  match decodeExecutionEventType event.eventType with
  | some .orderAccepted | some .orderRejected => (ignored, projection)
  | some .orderRested | some .orderPartiallyFilled => projection.applyRested order event
  | some .tradeExecuted => projection.applyTrade order event
  | some .orderFullyFilled => projection.applyFilled order event
  | some .orderCancelled => projection.applyCancelled order event
  | none => (rejected "unknown execution event type", projection)

/-- `MarketDataProjection::apply`. -/
def MarketDataProjection.apply (projection : MarketDataProjection) (order : IterationOrder)
    (event : ExecutionEventRecordV1) : ProjectionApplyResult × MarketDataProjection :=
  if event.eventSequence ≠ projection.lastAppliedEventSequence + 1 then
    (rejected ("event sequence gap: expected "
      ++ toString (projection.lastAppliedEventSequence + 1)
      ++ " got " ++ toString event.eventSequence), projection)
  else
    let outcome := projection.applyByType order event
    if outcome.1.status ≠ .rejected then
      (outcome.1, { outcome.2 with lastAppliedEventSequence := event.eventSequence })
    else outcome

/-- The projection as a machine that answers each event with a result. -/
def projectionMachine :
    Machine MarketDataProjection (IterationOrder × ExecutionEventRecordV1)
      ProjectionApplyResult where
  step projection input :=
    ([(projection.apply input.1 input.2).1], (projection.apply input.1 input.2).2)

/-- Feed events in order to a fresh projection; the hash map is visited in the
`i`-th given order during the `i`-th event. -/
def MarketDataProjection.feed (orders : ℕ → IterationOrder) (events : List ExecutionEventRecordV1) :
    List ProjectionApplyResult × MarketDataProjection :=
  projectionMachine.run {} (events.zipIdx.map fun entry => (orders entry.2, entry.1))

/-- One more event is applied to the projection the events before it leave. -/
theorem MarketDataProjection.feed_concat (orders : ℕ → IterationOrder)
    (events : List ExecutionEventRecordV1) (event : ExecutionEventRecordV1) :
    feed orders (events ++ [event]) =
      ((feed orders events).1 ++
          [((feed orders events).2.apply (orders events.length) event).1],
        ((feed orders events).2.apply (orders events.length) event).2) := by
  unfold feed
  rw [List.zipIdx_append, List.map_append]
  simp only [Nat.zero_add, List.zipIdx_cons, List.zipIdx_nil, List.map_cons, List.map_nil]
  rw [projectionMachine.run_concat]
  rfl

/-- An event of the expected number is refused by the `switch` or not at all. -/
theorem MarketDataProjection.apply_of_next {p : MarketDataProjection} (order : IterationOrder)
    {event : ExecutionEventRecordV1}
    (hnext : event.eventSequence = p.lastAppliedEventSequence + 1) :
    (p.apply order event).1 = (p.applyByType order event).1 ∧
      ((p.apply order event).1.status ≠ .rejected →
        (p.apply order event).2 = { (p.applyByType order event).2 with
          lastAppliedEventSequence := event.eventSequence }) := by
  unfold apply
  rw [if_neg (not_not.mpr hnext)]
  simp only
  split
  · exact ⟨rfl, fun _ => rfl⟩
  · rename_i hrejected
    exact ⟨rfl, fun h => absurd h hrejected⟩

/-! ## What rebuilding the book leaves alone -/

/-- Adding an order notes its instrument. -/
@[simp] theorem BookSums.add_instrumentId (sums : BookSums) (entry : UInt64 × OrderState) :
    (sums.add entry).instrumentId = entry.2.instrumentId := by
  unfold add
  simp only
  split
  · rfl
  · split <;> rfl

/-- The loop of `rebuild_book` leaves the instrument all its orders have. -/
theorem BookSums.foldl_add_instrumentId {instrumentId : UInt32} (sums : BookSums)
    {entries : List (UInt64 × OrderState)}
    (hall : ∀ entry ∈ entries, entry.2.instrumentId = instrumentId)
    (hsome : entries ≠ [] ∨ sums.instrumentId = instrumentId) :
    (entries.foldl BookSums.add sums).instrumentId = instrumentId := by
  induction entries generalizing sums with
  | nil => exact hsome.resolve_left (not_not.mpr rfl)
  | cons entry entries ih =>
    obtain ⟨hentry, hrest⟩ := List.forall_mem_cons.mp hall
    exact ih (sums.add entry) hrest (Or.inr ((sums.add_instrumentId entry).trans hentry))

/-- A rebuilt book shows the instrument all projected orders have. -/
theorem MarketDataProjection.rebuildBook_instrumentId (projection : MarketDataProjection)
    (order : IterationOrder) {instrumentId : UInt32}
    (hall : ∀ orderId o, projection.activeOrders.lookup orderId = some o →
      o.instrumentId = instrumentId)
    (hsome : ∃ orderId, orderId ∈ projection.activeOrders) :
    (projection.rebuildBook order).book.instrumentId = instrumentId := by
  refine BookSums.foldl_add_instrumentId _ (fun entry hentry => ?_) (Or.inl ?_)
  · exact hall entry.1 entry.2 ((order.mem_iff _ _ _).mp hentry)
  · obtain ⟨orderId, hmem⟩ := hsome
    obtain ⟨o, ho⟩ := Finmap.mem_iff.mp hmem
    exact List.ne_nil_of_mem ((order.mem_iff _ _ _).mpr ho)

end MatchingEngine
