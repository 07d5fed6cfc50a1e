import MatchingEngine.Core.Relabelling

/-!
# The book as its events tell it

The events carry everything about the orders but their client ids. Taken one by one, without any
matching, they give the book at every moment of a run. Two engines with the same events behind
them therefore answer every further command alike.
-/

namespace MatchingEngine

/-! ## Taking events -/

/-- All clients are the same. -/
def anonymous : Relabelling :=
  { Relabelling.same with clientId := fun _ => 0 }

theorem anonymous_instrumentId {m r : Moment} (h : anonymous.symmetry.Relates m r) :
    r.instrumentId = m.instrumentId := h.instrumentId.trans Option.map_id_apply

/-- The order that an event tells of. -/
def ExecutionEventRecordV1.restingOrder (event : ExecutionEventRecordV1) : RestingOrder where
  orderId := event.orderId
  instrumentId := event.instrumentId
  side := event.side
  priceTicks := event.priceTicks
  remainingQuantityLots := event.remainingQuantityLots

/-- The front order of the best level of a side is changed, and leaves if nothing is left of it. -/
def Moment.withFront (m : Moment) (s : Side) (priceTicks : Int64) (front : RestingOrder)
    (rest : List RestingOrder) (worse : List PriceLevel) : Moment :=
  if front.remainingQuantityLots = 0 then
    { m with
      levels := Function.update m.levels s (consLevel priceTicks rest worse)
      activeOrders := m.activeOrders.erase front.orderId }
  else
    { m with
      levels := Function.update m.levels s (consLevel priceTicks (front :: rest) worse)
      activeOrders := m.activeOrders.insert front.orderId front }

/-- A trade takes its quantity from the front order of the contra side. -/
def Moment.afterTrade (m : Moment) (contra : Side) (quantityLots : Int64) : Moment :=
  match m.levels contra with
  | (priceTicks, front :: rest) :: worse =>
    m.withFront contra priceTicks
      { front with remainingQuantityLots := front.remainingQuantityLots - quantityLots } rest worse
  | _ => m

/-- What an event changes. -/
def Moment.takeEvent (m : Moment) (event : ExecutionEventRecordV1) : Moment :=
  let m := { m with counters := { m.counters with nextEventSequence := event.eventSequence + 1 } }
  match decodeExecutionEventType event.eventType, decodeSide event.side with
  | some .orderAccepted, _ => { m with instrumentId := some event.instrumentId }
  | some .orderRested, some s
  | some .orderPartiallyFilled, some s =>
    { m with
      levels := Function.update m.levels s
        (OrderedMap.upsertEntries s.Better event.priceTicks [] (· ++ [event.restingOrder])
          (m.levels s))
      activeOrders := m.activeOrders.insert event.orderId event.restingOrder }
  | some .tradeExecuted, some s =>
    let m := { m with counters := { m.counters with nextTradeId := event.tradeId + 1 } }
    m.afterTrade s.opposite event.quantityLots
  | some .orderCancelled, some s =>
    { m with
      levels := Function.update m.levels s (erasedEntries event.restingOrder (m.levels s) s)
      activeOrders := m.activeOrders.erase event.orderId }
  | _, _ => m

/-- The moment that events lead to from a fresh book. -/
def rebuild (firstEventSequence : UInt64) (events : List ExecutionEventRecordV1) : Moment :=
  events.foldl Moment.takeEvent (OrderBook.create firstEventSequence).moment

/-! ## One emission -/

section Steps

open Relabelling

variable {m r : Moment}

/-- The levels after a trade. -/
theorem anonymous_consLevel (priceTicks : Int64) (queue : List RestingOrder)
    (worse : List PriceLevel) :
    (consLevel priceTicks queue worse).map anonymous.level =
      consLevel priceTicks (queue.map anonymous.order) (worse.map anonymous.level) := by
  cases queue <;> rfl

/-- An order that has been used up is not active, however it was left there. -/
theorem Symmetry.Index.erase_insert {T : Symmetry} {activeOrders activeOrders' : ActiveOrders}
    (h : T.Index activeOrders activeOrders') (orderId : UInt64) (o : RestingOrder) :
    T.Index ((activeOrders.insert orderId o).erase orderId)
      (activeOrders'.erase (T.orderId orderId)) := by
  intro id
  rw [h.erase orderId id]
  by_cases heq : id = orderId
  · rw [heq, Finmap.lookup_erase, Finmap.lookup_erase]
  · rw [Finmap.lookup_erase_ne heq, Finmap.lookup_erase_ne heq, Finmap.lookup_insert_of_ne _ heq]

/-- A trade event tells of the quantity that the front order of the other side loses. -/
theorem rebuilds_trade (h : anonymous.symmetry.Relates m r) (command : OrderCommandRecordV1)
    (remaining : Int64) {s : Side} {priceTicks : Int64} {o : RestingOrder}
    {rest : List RestingOrder} {worse : List PriceLevel}
    (hside : decodeSide command.side = some s)
    (hlevels : m.levels s.opposite = (priceTicks, o :: rest) :: worse) :
    let fill := fillFront command priceTicks o (m.vars remaining)
    anonymous.symmetry.Relates
      (m.withMatch command s.opposite (levelsAfterFill fill priceTicks rest worse)
        (varsAfterFill fill))
      (r.takeEvent fill.event) := by
  intro fill
  have hfront : r.levels s.opposite =
      (priceTicks, anonymous.order o :: rest.map anonymous.order) ::
        worse.map anonymous.level := by
    rw [levels_of_relates h, hlevels]
    rfl
  have htaken : r.takeEvent fill.event =
      { r with counters := fill.vars.counters }.withFront s.opposite priceTicks
        (anonymous.order fill.restingOrder) (rest.map anonymous.order)
        (worse.map anonymous.level) := by
    have htype : fill.event.eventType = ExecutionEventType.tradeExecuted.code := rfl
    have hevent : fill.event.side = command.side := rfl
    unfold Moment.takeEvent
    rw [htype, decodeExecutionEventType_code, hevent, hside, counters_of_relates h]
    unfold Moment.afterTrade
    dsimp only
    rw [hfront]
    rfl
  rw [htaken]
  unfold Moment.withFront levelsAfterFill varsAfterFill
  rw [order_remainingQuantityLots]
  by_cases hgone : fill.restingOrder.remainingQuantityLots = 0
  · rw [if_pos hgone, if_pos hgone, if_pos hgone]
    refine h.update s.opposite rfl ?_ (h.index.erase_insert _ _) h.instrumentId rfl
      fun _ _ => trivial
    exact congrArg (Function.update r.levels s.opposite)
      (anonymous_consLevel priceTicks rest worse).symm
  · rw [if_neg hgone, if_neg hgone, if_neg hgone]
    refine h.update s.opposite rfl ?_ (h.index.insert _ _) h.instrumentId rfl
      fun _ _ => trivial
    exact congrArg (Function.update r.levels s.opposite)
      (anonymous_consLevel priceTicks (fill.restingOrder :: rest) worse).symm

/-- A rest event tells of the order that rests. -/
theorem rebuilds_rest (h : anonymous.symmetry.Relates m r) (hwf : m.WellFormed)
    {command : OrderCommandRecordV1} {s : Side} (hside : decodeSide command.side = some s)
    (remaining : Int64) :
    anonymous.symmetry.Relates (m.afterRest command s remaining)
      (r.takeEvent (emitRestEvent m.counters command remaining).1) := by
  have htaken : r.takeEvent (emitRestEvent r.counters command remaining).1 =
      { r.afterRest (anonymous.command command) s remaining with incoming := r.incoming } := by
    unfold Moment.takeEvent emitRestEvent emitOrderEvent
    by_cases hwhole : remaining ≠ command.quantityLots
    · simp only [if_pos hwhole, decodeExecutionEventType_code, hside]
      rfl
    · simp only [if_neg hwhole, decodeExecutionEventType_code, hside]
      rfl
  rw [← counters_of_relates h, htaken]
  exact (h.afterRest trivial (hwf.sorted s) remaining).incoming

/-- A cancel event tells of the order that leaves. -/
theorem rebuilds_cancel (h : anonymous.symmetry.Relates m r) (hwf : m.WellFormed)
    {command : OrderCommandRecordV1} {o : RestingOrder} {s : Side}
    (hactive : m.activeOrders.lookup command.orderId = some o)
    (hside : decodeSide o.side = some s) :
    anonymous.symmetry.Relates (m.afterCancel command s o)
      (r.takeEvent (emitCancelEvent m.counters command o).1) := by
  have hid : o.orderId = command.orderId := (((hwf.indexed .buy).lookup_iff _ _).mp hactive).2
  have horder : (emitCancelEvent m.counters command o).1.restingOrder = anonymous.order o := by
    rw [show anonymous.order o = { o with clientId := 0 } from rfl]
    unfold ExecutionEventRecordV1.restingOrder emitCancelEvent emitOrderEvent
    rw [hid]
  have htaken : r.takeEvent (emitCancelEvent m.counters command o).1 =
      r.afterCancel (anonymous.command command) s (anonymous.order o) := by
    have htype : (emitCancelEvent m.counters command o).1.eventType =
        ExecutionEventType.orderCancelled.code := rfl
    have hevent : (emitCancelEvent m.counters command o).1.side = o.side := rfl
    have hname : (emitCancelEvent m.counters command o).1.orderId = o.orderId := hid.symm
    unfold Moment.takeEvent
    rw [htype, decodeExecutionEventType_code, hevent, hside, hname, horder,
      ← counters_of_relates h]
    rfl
  rw [htaken]
  exact h.afterCancel trivial (hwf.sorted s)

/-- Every emission can be followed by its event alone. -/
theorem EmissionStep.rebuilds {m' : Moment} {e : Emission} (hstep : EmissionStep m e m')
    (hwf : m.WellFormed) (h : anonymous.symmetry.Relates m r) :
    anonymous.symmetry.Relates m' (r.takeEvent e.event) := by
  cases hstep with
  | reject command reason hidle =>
    have htype : (emitRejectionEvent m.counters command reason).1.eventType =
        ExecutionEventType.orderRejected.code := rfl
    unfold Moment.takeEvent Moment.emission
    rw [htype, decodeExecutionEventType_code]
    exact ⟨h.levels, h.index, h.instrumentId, by rw [counters_of_relates h]; rfl, h.range⟩
  | cancel hidle hactive hside => exact rebuilds_cancel h hwf hactive hside
  | accept hidle hside hprice hquantity hnew hinstrument =>
    unfold Moment.takeEvent Moment.emission emitOrderEvent
    rw [decodeExecutionEventType_code]
    exact ⟨h.levels, h.index, rfl, by rw [counters_of_relates h]; rfl, h.range⟩
  | trade hincoming hside hremaining hlevels hcross =>
    exact rebuilds_trade h _ _ hside hlevels
  | fill hincoming =>
    unfold Moment.takeEvent Moment.emission emitOrderEvent
    rw [decodeExecutionEventType_code]
    exact ⟨h.levels, h.index, h.instrumentId, by rw [counters_of_relates h]; rfl, h.range⟩
  | rest hincoming hside hremaining hcross => exact rebuilds_rest h hwf hside _

end Steps

/-! ## Runs -/

/-- Every sequence of emissions from a fresh book. -/
theorem EmissionSteps.rebuilds {firstEventSequence : UInt64} {es : List Emission} {m : Moment}
    (hsteps : EmissionSteps (OrderBook.create firstEventSequence).moment es m) :
    anonymous.symmetry.Relates m (rebuild firstEventSequence (es.map Emission.event)) := by
  have hrun := hsteps.preserves (P := fun es m => m.WellFormed ∧
      anonymous.symmetry.Relates m (rebuild firstEventSequence (es.map Emission.event)))
    (fun {history m e m'} hstep hm => ?_) []
    ⟨OrderBook.wellFormed_create firstEventSequence,
      anonymous.symmetry.relates_create firstEventSequence⟩
  · exact hrun.2
  · refine ⟨hstep.wellFormed hm.1, ?_⟩
    have hnext := hstep.rebuilds hm.1 hm.2
    unfold rebuild at hnext ⊢
    rw [List.map_append, List.foldl_append]
    exact hnext

/-- Every run. -/
theorem rebuilds_applyAll (firstEventSequence : UInt64) (commands : List OrderCommandRecordV1) :
    anonymous.symmetry.Relates
      ((InstrumentEngine.create firstEventSequence).applyAll commands).2.orderBook.moment
      (rebuild firstEventSequence
        ((InstrumentEngine.create firstEventSequence).applyAll commands).1) := by
  have htold := (InstrumentEngine.steps_applyAll firstEventSequence commands).rebuilds
  rwa [InstrumentEngine.emissionsAll_events] at htold

/-- The events of a run alone, without any matching, give its book up to the client ids. -/
theorem book_rebuilt (firstEventSequence : UInt64) (commands : List OrderCommandRecordV1) :
    let run := (InstrumentEngine.create firstEventSequence).applyAll commands
    let told := rebuild firstEventSequence run.1
    told.levels .buy = run.2.orderBook.bids.entries.map anonymous.level ∧
      told.levels .sell = run.2.orderBook.asks.entries.map anonymous.level ∧
      (∀ orderId, told.activeOrders.lookup orderId =
        (run.2.orderBook.activeOrders.lookup orderId).map anonymous.order) ∧
      told.instrumentId = run.2.orderBook.instrumentId ∧
      told.counters = run.2.orderBook.counters := by
  intro run told
  have htold := rebuilds_applyAll firstEventSequence commands
  exact ⟨htold.levels .buy, htold.levels .sell, htold.index,
    anonymous_instrumentId htold, htold.counters⟩

/-! ## What the events leave open -/

/-- A moment without its client ids is determined, the incoming order apart. -/
theorem anonymous_unique {m r r' : Moment} (h : anonymous.symmetry.Relates m r)
    (h' : anonymous.symmetry.Relates m r') (hincoming : r.incoming = r'.incoming) : r = r' := by
  have hlevels : r.levels = r'.levels := funext fun s => (h.levels s).trans (h'.levels s).symm
  have hindex : r.activeOrders = r'.activeOrders :=
    Finmap.ext_lookup fun orderId => (h.index orderId).trans (h'.index orderId).symm
  have hinstrument : r.instrumentId = r'.instrumentId := h.instrumentId.trans h'.instrumentId.symm
  have hcounters : r.counters = r'.counters := h.counters.trans h'.counters.symm
  cases r
  cases r'
  simp only [Moment.mk.injEq]
  exact ⟨hlevels, hindex, hinstrument, hcounters, hincoming⟩

/-- The moment shows the whole book. -/
theorem OrderBook.eq_of_moment {book book' : OrderBook} (h : book.moment = book'.moment) :
    book = book' := by
  have hlevels : book.levels = book'.levels := congrArg Moment.levels h
  have hbids : book.bids = book'.bids := OrderedMap.ext (congrFun hlevels .buy)
  have hasks : book.asks = book'.asks := OrderedMap.ext (congrFun hlevels .sell)
  have hindex : book.activeOrders = book'.activeOrders := congrArg Moment.activeOrders h
  have hinstrument : book.instrumentId = book'.instrumentId := congrArg Moment.instrumentId h
  have hcounters : book.counters = book'.counters := congrArg Moment.counters h
  cases book
  cases book'
  simp only [OrderBook.mk.injEq]
  exact ⟨hinstrument, hcounters, hbids, hasks, hindex⟩

/-- The same commands without their client ids end in the book that the events tell. -/
theorem anonymous_moment (firstEventSequence : UInt64) (commands : List OrderCommandRecordV1) :
    ((InstrumentEngine.create firstEventSequence).applyAll
        (commands.map anonymous.command)).2.orderBook.moment =
      { rebuild firstEventSequence
          ((InstrumentEngine.create firstEventSequence).applyAll commands).1 with
        incoming := none } :=
  anonymous_unique (anonymous.relates_run firstEventSequence commands).2
    (rebuilds_applyAll firstEventSequence commands).incoming rfl

/-- No event has a client id. -/
theorem anonymous_events (events : List ExecutionEventRecordV1) :
    events.map anonymous.event = events := List.map_id events

/-- After the same events every further command is answered alike, whatever the commands before
were, and the books stay the same up to the client ids. -/
theorem events_determine_future (firstEventSequence : UInt64)
    {commands commands' : List OrderCommandRecordV1}
    (hevents : ((InstrumentEngine.create firstEventSequence).applyAll commands).1 =
      ((InstrumentEngine.create firstEventSequence).applyAll commands').1)
    (further : List OrderCommandRecordV1) :
    let fresh := InstrumentEngine.create firstEventSequence
    let run := (fresh.applyAll commands).2.applyAll further
    let run' := (fresh.applyAll commands').2.applyAll further
    run.1 = run'.1 ∧
      run.2.orderBook.bids.entries.map anonymous.level =
        run'.2.orderBook.bids.entries.map anonymous.level ∧
      run.2.orderBook.asks.entries.map anonymous.level =
        run'.2.orderBook.asks.entries.map anonymous.level ∧
      run.2.orderBook.instrumentId = run'.2.orderBook.instrumentId ∧
      run.2.orderBook.counters = run'.2.orderBook.counters := by
  intro fresh run run'
  have hmoment := anonymous_moment firstEventSequence commands
  rw [hevents, ← anonymous_moment firstEventSequence commands'] at hmoment
  have hsame : (fresh.applyAll (commands.map anonymous.command)).2 =
      (fresh.applyAll (commands'.map anonymous.command)).2 :=
    congrArg InstrumentEngine.mk (OrderBook.eq_of_moment hmoment)
  have hreached (before : List OrderCommandRecordV1) :=
    anonymous.relates_applyAll (InstrumentEngine.reachable_applyAll firstEventSequence before)
      (anonymous.relates_run firstEventSequence before).2 further
  obtain ⟨hanswers, hbook⟩ := hreached commands
  obtain ⟨hanswers', hbook'⟩ := hreached commands'
  rw [anonymous_events] at hanswers hanswers'
  rw [hsame] at hanswers hbook
  refine ⟨hanswers.symm.trans hanswers', (hbook.levels .buy).symm.trans (hbook'.levels .buy),
    (hbook.levels .sell).symm.trans (hbook'.levels .sell),
    (anonymous_instrumentId hbook).symm.trans (anonymous_instrumentId hbook'),
    hbook.counters.symm.trans hbook'.counters⟩

/-- An order of another client trades alike. -/
theorem events_determine_future_trade :
    let fresh := InstrumentEngine.create 1
    let order (clientId : UInt64) : OrderCommandRecordV1 :=
      { commandSequence := 1, orderId := 1, clientId := clientId, priceTicks := 40
        quantityLots := 3, instrumentId := 1, commandType := 1, side := 2, timeInForce := 1 }
    let crossing : OrderCommandRecordV1 :=
      { commandSequence := 2, orderId := 2, priceTicks := 45, quantityLots := 2
        instrumentId := 1, commandType := 1, side := 1, timeInForce := 1 }
    ((fresh.applyAll [order 5]).2.applyAll [crossing]).1 =
      ((fresh.applyAll [order 6]).2.applyAll [crossing]).1 :=
  (events_determine_future 1 (by decide) _).1

end MatchingEngine
