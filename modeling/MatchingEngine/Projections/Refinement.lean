import MatchingEngine.Core.Crossing
import MatchingEngine.Projections.MarketData

/-!
# The projection follows the engine

Engine and projection are joined by the event stream only. After every event the
projected orders are the active orders of the engine at that moment; a projection
that is in step refuses an event only if it puts the order id zero into the book.
-/

namespace MatchingEngine

/-- What the projection keeps of a resting order. -/
def RestingOrder.projected (o : RestingOrder) : OrderState where
  instrumentId := o.instrumentId
  side := o.side
  priceTicks := o.priceTicks
  remainingQuantityLots := o.remainingQuantityLots

/-- The trade tape of a list of events. -/
def tradeTape (events : List ExecutionEventRecordV1) : List PublicTrade :=
  (events.filter fun event => event.IsTrade).map ExecutionEventRecordV1.publicTrade

/-- The projection is in step with the engine. -/
structure Follows (history : List ExecutionEventRecordV1) (m : Moment) (p : MarketDataProjection) :
    Prop where
  /-- The projected orders are the active ones. -/
  orders : ∀ orderId, p.activeOrders.lookup orderId =
    (m.activeOrders.lookup orderId).map RestingOrder.projected
  /-- The next event is the one the projection expects. -/
  next : p.lastAppliedEventSequence + 1 = m.counters.nextEventSequence
  /-- The last event is the one the projection has seen last. -/
  last : ∀ event ∈ history.getLast?, p.lastAppliedEventSequence = event.eventSequence
  /-- The tape shows the trades. -/
  trades : p.trades = tradeTape history
  /-- The book shows the instrument of the active orders. -/
  instrument : ∀ orderId ∈ m.activeOrders, m.instrumentId = some p.book.instrumentId
  /-- The order id zero is not active. -/
  nonzero : (0 : UInt64) ∉ m.activeOrders

theorem tradeTape_concat_of_trade {event : ExecutionEventRecordV1} (h : event.IsTrade)
    (history : List ExecutionEventRecordV1) :
    tradeTape (history ++ [event]) = tradeTape history ++ [event.publicTrade] := by
  simp [tradeTape, h]

theorem tradeTape_concat_of_not_trade {event : ExecutionEventRecordV1} (h : ¬ event.IsTrade)
    (history : List ExecutionEventRecordV1) :
    tradeTape (history ++ [event]) = tradeTape history := by
  simp [tradeTape, h]

theorem applied_ne_rejected : applied.status ≠ .rejected := by decide

theorem ignored_ne_rejected : ignored.status ≠ .rejected := by decide

/-- A projected order is active. -/
theorem Follows.mem_iff {history : List ExecutionEventRecordV1} {m : Moment}
    {p : MarketDataProjection} (hp : Follows history m p) (orderId : UInt64) :
    orderId ∈ p.activeOrders ↔ orderId ∈ m.activeOrders := by
  rw [Finmap.mem_iff, Finmap.mem_iff, ← Option.isSome_iff_exists, ← Option.isSome_iff_exists,
    hp.orders orderId, Option.isSome_map]

/-- A projection that knows the active orders of a well-formed moment shows
their instrument after it has rebuilt its book. -/
theorem MarketDataProjection.rebuildBook_instrument {p : MarketDataProjection} {m : Moment}
    (hwf : m.WellFormed)
    (horders : ∀ orderId, p.activeOrders.lookup orderId =
      (m.activeOrders.lookup orderId).map RestingOrder.projected)
    (order : IterationOrder) :
    ∀ orderId ∈ m.activeOrders,
      m.instrumentId = some (p.rebuildBook order).book.instrumentId := by
  have hbound : ∀ orderId o, m.activeOrders.lookup orderId = some o →
      m.instrumentId = some o.instrumentId := by
    intro orderId o hlookup
    rcases List.mem_append.mp ((hwf.indexed .buy).mem_of_lookup hlookup) with ho | ho
    · exact hwf.bound .buy o ho
    · exact hwf.bound _ o ho
  intro orderId hmem
  obtain ⟨o, hlookup⟩ := Finmap.mem_iff.mp hmem
  rw [hbound orderId o hlookup, Option.some.injEq, eq_comm]
  refine p.rebuildBook_instrumentId order (fun orderId' state hstate => ?_) ⟨orderId, ?_⟩
  · rw [horders orderId'] at hstate
    obtain ⟨o', hlookup', rfl⟩ := Option.map_eq_some_iff.mp hstate
    exact Option.some.inj ((hbound orderId' o' hlookup').symm.trans (hbound orderId o hlookup))
  · exact Finmap.mem_iff.mpr ⟨o.projected, by rw [horders orderId, hlookup]; rfl⟩

/-- What the `switch` has to do with an event to keep the projection in step. -/
structure FollowsStep (m' : Moment) (p : MarketDataProjection) (event : ExecutionEventRecordV1)
    (q : MarketDataProjection) : Prop where
  /-- The projected orders are the active ones. -/
  orders : ∀ orderId, q.activeOrders.lookup orderId =
    (m'.activeOrders.lookup orderId).map RestingOrder.projected
  /-- The tape grows by the trade of the event, if it is one. -/
  trades : q.trades = p.trades ++ if event.IsTrade then [event.publicTrade] else []
  /-- The book shows the instrument of the active orders. -/
  instrument : ∀ orderId ∈ m'.activeOrders, m'.instrumentId = some q.book.instrumentId
  /-- The order id zero is not active. -/
  nonzero : (0 : UInt64) ∉ m'.activeOrders

/-- The `switch` ignores an event that changes neither the orders nor the tape. -/
theorem Follows.step_ignored {history : List ExecutionEventRecordV1} {m m' : Moment}
    {p : MarketDataProjection} {event : ExecutionEventRecordV1} (hp : Follows history m p)
    (hactive : m'.activeOrders = m.activeOrders)
    (hinstrument : ∀ instrumentId, m.instrumentId = some instrumentId →
      m'.instrumentId = some instrumentId)
    (htrade : ¬ event.IsTrade) : FollowsStep m' p event p where
  orders orderId := by rw [hactive, hp.orders]
  trades := by rw [if_neg htrade, List.append_nil]
  instrument orderId hmem := hinstrument _ (hp.instrument orderId (hactive ▸ hmem))
  nonzero := hactive ▸ hp.nonzero

/-- The projection applies the trade of the front order and keeps what is left of it. -/
theorem Follows.applyTrade_eq {history : List ExecutionEventRecordV1} {m : Moment}
    {p : MarketDataProjection} (hp : Follows history m p) (order : IterationOrder)
    (event : ExecutionEventRecordV1) {o : RestingOrder}
    (hlookup : m.activeOrders.lookup event.contraOrderId = some o)
    (hpositive : 0 < event.quantityLots) (hle : event.quantityLots ≤ o.remainingQuantityLots) :
    p.applyTrade order event =
      (applied,
        { p with
          trades := p.trades ++ [event.publicTrade]
          activeOrders :=
            if o.remainingQuantityLots - event.quantityLots = 0 then
              p.activeOrders.erase event.contraOrderId
            else p.activeOrders.insert event.contraOrderId
              { o with remainingQuantityLots :=
                  o.remainingQuantityLots - event.quantityLots }.projected }.rebuildBook
        order) := by
  have hknown : p.activeOrders.lookup event.contraOrderId = some o.projected := by
    rw [hp.orders, hlookup]
    rfl
  have hnonzero : event.contraOrderId ≠ 0 :=
    fun h => hp.nonzero (h ▸ Finmap.mem_iff.mpr ⟨o, hlookup⟩)
  unfold MarketDataProjection.applyTrade
  rw [if_neg (not_or.mpr ⟨not_le.mpr hpositive, hnonzero⟩), hknown]
  exact if_neg (not_lt.mpr hle)

/-- The projection puts a visible order with a proper id into its book. -/
theorem MarketDataProjection.applyRested_eq (p : MarketDataProjection) (order : IterationOrder)
    (event : ExecutionEventRecordV1) {s : Side} (hside : decodeSide event.side = some s)
    (hremaining : 0 < event.remainingQuantityLots) (hprice : 0 < event.priceTicks) :
    p.applyRested order event =
      if event.orderId = 0 then
        (rejected "invalid order state for market data projection", p)
      else
        (applied,
          { p with
            activeOrders := p.activeOrders.insert event.orderId
              { instrumentId := event.instrumentId
                side := event.side
                priceTicks := event.priceTicks
                remainingQuantityLots := event.remainingQuantityLots } }.rebuildBook order) := by
  have hvisible : ¬ (event.remainingQuantityLots ≤ 0 ∨
      (¬ isBuy event.side ∧ ¬ isSell event.side)) := by
    rw [decodeSide_eq_some_iff] at hside
    rintro (h | ⟨hbuy, hsell⟩)
    · exact absurd hremaining (not_lt.mpr h)
    · cases s with
      | buy => exact hbuy (decide_eq_true hside)
      | sell => exact hsell (decide_eq_true hside)
  unfold applyRested upsertOrder
  rw [if_neg hvisible]
  simp only [not_le.mpr hprice, not_le.mpr hremaining, or_false]

/-- What the `switch` does with the event of a step: it refuses an event that puts
the order id zero into the book, and keeps the projection in step with any other. -/
def SwitchFollows (m' : Moment) (p : MarketDataProjection) (event : ExecutionEventRecordV1)
    (outcome : ProjectionApplyResult × MarketDataProjection) : Prop :=
  (outcome.1.status = .rejected ∧ event.Rests 0) ∨
    (outcome.1.status ≠ .rejected ∧ ¬ event.Rests 0 ∧ FollowsStep m' p event outcome.2)

/-- The `switch` follows a cancellation. -/
theorem Follows.switch_cancel {history : List ExecutionEventRecordV1} {m : Moment}
    {p : MarketDataProjection} (hp : Follows history m p) (order : IterationOrder)
    {command : OrderCommandRecordV1} {o : RestingOrder} {s : Side} (hwf : m.WellFormed)
    (hwf' : (m.afterCancel command s o).WellFormed)
    (hactive : m.activeOrders.lookup command.orderId = some o) :
    SwitchFollows (m.afterCancel command s o) p (emitCancelEvent m.counters command o).1
      (p.applyByType order (emitCancelEvent m.counters command o).1) := by
  have hid : o.orderId = command.orderId := (hwf.indexed .buy).key_of_lookup hactive
  have hmem : command.orderId ∈ p.activeOrders :=
    (hp.mem_iff _).mpr (Finmap.mem_iff.mpr ⟨o, hactive⟩)
  have happly : p.applyByType order (emitCancelEvent m.counters command o).1 =
      p.removeOrder order command.orderId := if_neg (not_not.mpr hmem)
  have horders : ∀ orderId, (p.activeOrders.erase command.orderId).lookup orderId =
      ((m.afterCancel command s o).activeOrders.lookup orderId).map RestingOrder.projected := by
    intro orderId
    change _ = (((m.activeOrders.erase o.orderId).lookup orderId).map _)
    rw [hid]
    by_cases h : orderId = command.orderId
    · subst h
      simp
    · rw [Finmap.lookup_erase_ne h, Finmap.lookup_erase_ne h, hp.orders]
  rw [happly]
  refine Or.inr ⟨applied_ne_rejected, not_rests_of_eventType .orderCancelled rfl (by decide) 0,
    horders, ?_, MarketDataProjection.rebuildBook_instrument hwf' horders order, ?_⟩
  · rw [if_neg (not_isTrade_of_eventType .orderCancelled rfl (by decide)), List.append_nil]
    rfl
  · exact fun h => hp.nonzero (Finmap.mem_erase.mp h).2

/-- The `switch` follows a complete fill: the incoming order was never in the book. -/
theorem Follows.switch_fill {history : List ExecutionEventRecordV1} {m m' : Moment}
    {p : MarketDataProjection} (hp : Follows history m p) (order : IterationOrder)
    {command : OrderCommandRecordV1} (hwf : m.WellFormed)
    (hincoming : m.incoming = some ⟨command, 0⟩) (hactive : m'.activeOrders = m.activeOrders)
    (hinstrument : m'.instrumentId = m.instrumentId) :
    SwitchFollows m' p
      (emitOrderEvent m.counters command .orderFullyFilled command.quantityLots 0).1
      (p.applyByType order
        (emitOrderEvent m.counters command .orderFullyFilled command.quantityLots 0).1) := by
  have hnew : command.orderId ∉ p.activeOrders :=
    fun h => (hwf.incoming _ hincoming).new ((hp.mem_iff _).mp h)
  have happly : p.applyByType order (emitOrderEvent m.counters command .orderFullyFilled
      command.quantityLots 0).1 = (ignored, p) := if_pos hnew
  rw [happly]
  exact Or.inr ⟨ignored_ne_rejected, not_rests_of_eventType .orderFullyFilled rfl (by decide) 0,
    hp.step_ignored hactive (fun _ h => hinstrument.trans h)
      (not_isTrade_of_eventType .orderFullyFilled rfl (by decide))⟩

/-- The `switch` follows a trade with the front order of the best contra level. -/
theorem Follows.switch_trade {history : List ExecutionEventRecordV1} {m m' : Moment}
    {p : MarketDataProjection} (hp : Follows history m p) (order : IterationOrder)
    {o : RestingOrder} {fill : Fill} {command : OrderCommandRecordV1} {remaining priceTicks : Int64}
    (hfill : fill = fillFront command priceTicks o (m.vars remaining))
    (hexact : FillExact remaining o fill) (hlookup : m.activeOrders.lookup o.orderId = some o)
    (hactive : m'.activeOrders = (varsAfterFill fill).activeOrders) (hwf' : m'.WellFormed) :
    SwitchFollows m' p fill.event (p.applyByType order fill.event) := by
  have htrade : fill.event.IsTrade := by
    rw [hfill]
    rfl
  have hcontra : fill.event.contraOrderId = o.orderId := by
    rw [hfill]
    rfl
  have hquantity : fill.event.quantityLots = min remaining o.remainingQuantityLots := by
    rw [hfill]
    rfl
  have hreduced : { o with remainingQuantityLots :=
      o.remainingQuantityLots - fill.event.quantityLots } = fill.restingOrder := by
    rw [hfill]
    rfl
  have hindex : fill.vars.activeOrders = m.activeOrders.insert o.orderId fill.restingOrder := by
    rw [hfill]
    rfl
  have hid : fill.restingOrder.orderId = o.orderId := by rw [← hreduced]
  have hswitch : p.applyByType order fill.event = p.applyTrade order fill.event := by
    rw [hfill]
    rfl
  have happly := hp.applyTrade_eq order fill.event (by rw [hcontra, hlookup])
    (by rw [hquantity]; exact FixedWidth.pos_iff.mpr hexact.quantity_pos)
    (by rw [hquantity]; exact min_le_right _ _)
  rw [hreduced, hcontra,
    show o.remainingQuantityLots - fill.event.quantityLots =
      fill.restingOrder.remainingQuantityLots from
      congrArg RestingOrder.remainingQuantityLots hreduced] at happly
  have horders : ∀ orderId,
      (if fill.restingOrder.remainingQuantityLots = 0 then p.activeOrders.erase o.orderId
        else p.activeOrders.insert o.orderId fill.restingOrder.projected).lookup orderId =
      (m'.activeOrders.lookup orderId).map RestingOrder.projected := by
    intro orderId
    rw [hactive]
    unfold varsAfterFill MatchVars.dropOrder
    by_cases h : orderId = o.orderId
    · subst h
      split
      · rw [hid]
        simp
      · rw [hindex]
        simp
    · split
      · rw [hid, hindex, Finmap.lookup_erase_ne h, Finmap.lookup_erase_ne h,
          Finmap.lookup_insert_of_ne _ h, hp.orders]
      · rw [hindex, Finmap.lookup_insert_of_ne _ h, Finmap.lookup_insert_of_ne _ h, hp.orders]
  have hnonzero : (0 : UInt64) ∉ m'.activeOrders := by
    have hfront : o.orderId ∈ (m.vars remaining).activeOrders := Finmap.mem_iff.mpr ⟨o, hlookup⟩
    rw [hactive, hfill]
    exact fun hmem => hp.nonzero (mem_of_mem_varsAfterFill hfront hmem)
  rw [hswitch, happly]
  refine Or.inr ⟨applied_ne_rejected, not_rests_of_eventType .tradeExecuted htrade (by decide) 0,
    horders, ?_, MarketDataProjection.rebuildBook_instrument hwf' horders order, hnonzero⟩
  rw [if_pos htrade]
  rfl

/-- The `switch` follows a resting announcement, unless the order id is zero. -/
theorem Follows.switch_rest {history : List ExecutionEventRecordV1} {m : Moment}
    {p : MarketDataProjection} (hp : Follows history m p) (order : IterationOrder)
    {command : OrderCommandRecordV1} {remaining : Int64} {s : Side}
    (hside : decodeSide command.side = some s) (hpositive : 0 < remaining)
    (hprice : 0 < command.priceTicks) (hwf' : (m.afterRest command s remaining).WellFormed) :
    SwitchFollows (m.afterRest command s remaining) p
      (emitRestEvent m.counters command remaining).1
      (p.applyByType order (emitRestEvent m.counters command remaining).1) := by
  obtain ⟨t, htype, ht⟩ : ∃ t : ExecutionEventType,
      (emitRestEvent m.counters command remaining).1.eventType = t.code ∧
        (t = .orderRested ∨ t = .orderPartiallyFilled) := by
    refine ⟨_, rfl, ?_⟩
    split
    · exact Or.inr rfl
    · exact Or.inl rfl
  have hswitch : p.applyByType order (emitRestEvent m.counters command remaining).1 =
      p.applyRested order (emitRestEvent m.counters command remaining).1 := by
    unfold MarketDataProjection.applyByType
    rw [htype, decodeExecutionEventType_code]
    rcases ht with rfl | rfl <;> rfl
  have htrade : ¬ (emitRestEvent m.counters command remaining).1.IsTrade := by
    refine not_isTrade_of_eventType t htype ?_
    rcases ht with rfl | rfl <;> decide
  have hrests := emitRestEvent_rests m.counters command remaining
  rw [hswitch, p.applyRested_eq order (emitRestEvent m.counters command remaining).1 hside
    hpositive hprice]
  by_cases hzero : (emitRestEvent m.counters command remaining).1.orderId = 0
  · rw [if_pos hzero]
    exact Or.inl ⟨rfl, hzero ▸ hrests⟩
  · rw [if_neg hzero]
    have horders : ∀ orderId, (p.activeOrders.insert command.orderId
        (restingOrderOf command remaining).projected).lookup orderId =
        ((m.afterRest command s remaining).activeOrders.lookup orderId).map
          RestingOrder.projected := by
      intro orderId
      change _ = ((m.activeOrders.insert command.orderId _).lookup orderId).map _
      by_cases h : orderId = command.orderId
      · subst h
        simp
      · rw [Finmap.lookup_insert_of_ne _ h, Finmap.lookup_insert_of_ne _ h, hp.orders]
    refine Or.inr ⟨applied_ne_rejected, fun h => hzero h.2, horders, ?_,
      MarketDataProjection.rebuildBook_instrument hwf' horders order, ?_⟩
    · rw [if_neg htrade, List.append_nil]
      rfl
    · intro h
      rcases Finmap.mem_insert.mp h with h | h
      · exact hzero h.symm
      · exact hp.nonzero h

/-- The `switch` follows every emission. -/
theorem EmissionStep.switchFollows {history : List ExecutionEventRecordV1} {m m' : Moment}
    {e : Emission} (hstep : EmissionStep m e m') (hwf : m.WellFormed)
    {p : MarketDataProjection} (hp : Follows history m p) (order : IterationOrder) :
    SwitchFollows m' p e.event (p.applyByType order e.event) := by
  have hwf' := hstep.wellFormed hwf
  cases hstep with
  | reject command reason hidle =>
    exact Or.inr ⟨ignored_ne_rejected, not_rests_of_eventType .orderRejected rfl (by decide) 0,
      hp.step_ignored rfl (fun _ h => h) (not_isTrade_of_eventType .orderRejected rfl (by decide))⟩
  | cancel hidle hactive hside => exact hp.switch_cancel order hwf hwf' hactive
  | accept hidle hside hprice hquantity hnew hinstrument =>
    exact Or.inr ⟨ignored_ne_rejected, not_rests_of_eventType .orderAccepted rfl (by decide) 0,
      hp.step_ignored rfl (fun instrumentId h => congrArg some (hinstrument instrumentId h))
        (not_isTrade_of_eventType .orderAccepted rfl (by decide))⟩
  | @trade command remaining s priceTicks o rest worse hincoming hside hremaining hlevels hcross =>
    have hfront := hwf.front hlevels
    exact hp.switch_trade order rfl
      (fillFront_exact command priceTicks (m.vars remaining) hremaining hfront.remaining)
      (hwf.lookup_front hlevels) rfl hwf'
  | fill hincoming => exact hp.switch_fill order hwf hincoming rfl rfl
  | @rest command remaining s hincoming hside hremaining hcross =>
    have hok := hwf.incoming _ hincoming
    exact hp.switch_rest order hside (hok.pos_of_ne_zero hremaining) hok.price hwf'

/-- A projection in step refuses exactly the events that put the order id zero into
the book, and every other event keeps it in step. -/
theorem EmissionStep.apply_follows {history : List ExecutionEventRecordV1} {m m' : Moment}
    {e : Emission} (hstep : EmissionStep m e m') (hwf : m.WellFormed)
    {p : MarketDataProjection} (hp : Follows history m p) (order : IterationOrder) :
    ((p.apply order e.event).1.status = .rejected ↔ e.event.Rests 0) ∧
      ((p.apply order e.event).1.status ≠ .rejected →
        Follows (history ++ [e.event]) m' (p.apply order e.event).2) := by
  obtain ⟨hsequence, hnext⟩ := hstep.eventSequence
  obtain ⟨hresult, hprojection⟩ := MarketDataProjection.apply_of_next order
    (hsequence.trans hp.next.symm)
  have hswitch := hstep.switchFollows hwf hp order
  unfold SwitchFollows at hswitch
  rw [← hresult] at hswitch
  rcases hswitch with ⟨hrejected, hrests⟩ | ⟨haccepted, hrests, hfollows⟩
  · exact ⟨iff_of_true hrejected hrests, fun h => absurd hrejected h⟩
  · refine ⟨iff_of_false haccepted hrests, fun _ => ?_⟩
    rw [hprojection haccepted]
    refine ⟨hfollows.orders, ?_, ?_, ?_, hfollows.instrument, hfollows.nonzero⟩
    · change e.event.eventSequence + 1 = _
      rw [hsequence, hnext]
    · intro event hlast
      rw [List.getLast?_concat] at hlast
      obtain rfl := Option.some.inj hlast
      rfl
    · change (p.applyByType order e.event).2.trades = _
      rw [hfollows.trades, hp.trades]
      by_cases htrade : e.event.IsTrade
      · rw [if_pos htrade, tradeTape_concat_of_trade htrade]
      · rw [if_neg htrade, List.append_nil, tradeTape_concat_of_not_trade htrade]

/-! ## Runs -/

/-- A fresh projection is in step with a fresh engine. -/
theorem follows_create : Follows [] (OrderBook.create 1).moment {} where
  orders _ := rfl
  next := rfl
  last _ h := by cases h
  trades := rfl
  instrument _ h := absurd h (Finmap.notMem_empty)
  nonzero := Finmap.notMem_empty

/-- What feeding the emissions of a run to a fresh projection gives. -/
structure Fed (orders : ℕ → IterationOrder) (es : List Emission) (m : Moment) : Prop where
  /-- A projection that has refused nothing is in step. -/
  follows : (∀ result ∈ (MarketDataProjection.feed orders (es.map Emission.event)).1,
      result.status ≠ .rejected) →
    Follows (es.map Emission.event) m
      (MarketDataProjection.feed orders (es.map Emission.event)).2
  /-- Nothing is refused exactly when the order id zero never joins the book. -/
  accepted : (∀ result ∈ (MarketDataProjection.feed orders (es.map Emission.event)).1,
      result.status ≠ .rejected) ↔ ∀ e ∈ es, ¬ e.event.Rests 0

/-- One more emission of a well-formed moment is fed. -/
theorem EmissionStep.fed {orders : ℕ → IterationOrder} {es : List Emission} {m m' : Moment}
    {e : Emission} (hstep : EmissionStep m e m') (hwf : m.WellFormed) (hfed : Fed orders es m) :
    Fed orders (es ++ [e]) m' := by
  have hconcat := MarketDataProjection.feed_concat orders (es.map Emission.event) e.event
  have hsplit : (∀ result ∈ (MarketDataProjection.feed orders
        ((es ++ [e]).map Emission.event)).1, result.status ≠ .rejected) ↔
      (∀ result ∈ (MarketDataProjection.feed orders (es.map Emission.event)).1,
        result.status ≠ .rejected) ∧
      ((MarketDataProjection.feed orders (es.map Emission.event)).2.apply
        (orders (es.map Emission.event).length) e.event).1.status ≠ .rejected := by
    rw [List.map_append, List.map_singleton, hconcat, List.forall_mem_append,
      List.forall_mem_singleton]
  refine ⟨fun h => ?_, ?_⟩
  · obtain ⟨hearlier, hlast⟩ := hsplit.mp h
    rw [List.map_append, List.map_singleton, hconcat]
    exact (hstep.apply_follows hwf (hfed.follows hearlier) _).2 hlast
  · rw [hsplit, List.forall_mem_append, List.forall_mem_singleton, ← hfed.accepted]
    refine and_congr_right fun hearlier => ?_
    exact not_congr (hstep.apply_follows hwf (hfed.follows hearlier) _).1

/-- A fresh projection has been fed nothing. -/
theorem fed_create (orders : ℕ → IterationOrder) : Fed orders [] (OrderBook.create 1).moment :=
  ⟨fun _ => follows_create, iff_of_true (fun _ h => absurd h List.not_mem_nil)
    (fun _ h => absurd h List.not_mem_nil)⟩

/-- The projection at every moment of a run. -/
theorem EmissionSteps.fed {es : List Emission} {m : Moment}
    (hsteps : EmissionSteps (OrderBook.create 1).moment es m) (orders : ℕ → IterationOrder) :
    m.WellFormed ∧ Fed orders es m :=
  hsteps.preserves (P := fun es m => m.WellFormed ∧ Fed orders es m)
    (fun hstep h => ⟨hstep.wellFormed h.1, hstep.fed h.1 h.2⟩) []
    ⟨OrderBook.wellFormed_create 1, fed_create orders⟩

/-- The projection after every run. -/
theorem fed_applyAll (orders : ℕ → IterationOrder) (commands : List OrderCommandRecordV1) :
    Fed orders ((InstrumentEngine.create 1).emissionsAll commands)
      ((InstrumentEngine.create 1).applyAll commands).2.orderBook.moment :=
  ((InstrumentEngine.steps_applyAll 1 commands).fed orders).2

/-- As long as the projection refuses nothing, it refines the engine: the same
active orders, all trades in order, the last event number and the instrument. -/
theorem projection_refines_engine (orders : ℕ → IterationOrder)
    (commands : List OrderCommandRecordV1)
    (haccepted : ∀ result ∈ (MarketDataProjection.feed orders
      ((InstrumentEngine.create 1).applyAll commands).1).1, result.status ≠ .rejected) :
    let run := (InstrumentEngine.create 1).applyAll commands
    let projection := (MarketDataProjection.feed orders run.1).2
    (∀ orderId, projection.activeOrders.lookup orderId =
        (run.2.orderBook.activeOrders.lookup orderId).map RestingOrder.projected) ∧
      projection.trades = tradeTape run.1 ∧
      (∀ event ∈ run.1.getLast?, projection.lastAppliedEventSequence = event.eventSequence) ∧
      ∀ orderId ∈ run.2.orderBook.activeOrders,
        run.2.orderBook.instrumentId = some projection.book.instrumentId := by
  have hfed := fed_applyAll orders commands
  rw [← InstrumentEngine.emissionsAll_events] at haccepted
  have hfollows := hfed.follows haccepted
  rw [InstrumentEngine.emissionsAll_events] at hfollows
  exact ⟨hfollows.orders, hfollows.trades, hfollows.last, hfollows.instrument⟩

/-- A sell order of two lots rests and a buy order takes one of them. -/
theorem projection_refines_engine_crossing :
    (MarketDataProjection.feed (fun _ => .byId) ((InstrumentEngine.create 1).applyAll
      [{ orderId := 1, instrumentId := 7, priceTicks := 10, quantityLots := 2, commandType := 1,
         side := 2, timeInForce := 1 },
       { orderId := 2, instrumentId := 7, priceTicks := 10, quantityLots := 1, commandType := 1,
         side := 1, timeInForce := 1 }]).1).2.trades =
      [{ tradeId := 1, instrumentId := 7, incomingOrderId := 2, restingOrderId := 1,
         aggressorSide := 1, priceTicks := 10, quantityLots := 1 }] :=
  (projection_refines_engine (fun _ => .byId) _ (by decide)).2.1.trans (by decide)

/-- The projection refuses no event of a run exactly when no step of the run is a
new order with id zero of which something is left after matching. -/
theorem projection_accepts_iff (orders : ℕ → IterationOrder)
    (commands : List OrderCommandRecordV1) :
    (∀ result ∈ (MarketDataProjection.feed orders
        ((InstrumentEngine.create 1).applyAll commands).1).1, result.status ≠ .rejected) ↔
      ∀ earlier command later, commands = earlier ++ command :: later →
        ¬ (command.orderId = 0 ∧
          ((InstrumentEngine.create 1).applyAll earlier).2.orderBook.RestsAfterMatching
            command) := by
  have hfed := (fed_applyAll orders commands).accepted
  rw [InstrumentEngine.emissionsAll_events] at hfed
  exact hfed.trans (emissionsAll_not_rests_zero_iff 1 commands)

/-- A new order with id zero rests, and the projection refuses the announcement. -/
theorem projection_refuses_order_zero :
    ¬ ∀ result ∈ (MarketDataProjection.feed (fun _ => .byId)
      ((InstrumentEngine.create 1).applyAll
        [{ instrumentId := 7, priceTicks := 10, quantityLots := 1, commandType := 1, side := 1,
           timeInForce := 1 }]).1).1, result.status ≠ .rejected := by
  decide

end MatchingEngine
