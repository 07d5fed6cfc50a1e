import MatchingEngine.Core.Emission

/-!
# What one emission can do to the book

Every command is a sequence of emissions, and there are only six kinds of them.
`EmissionStep` lists the kinds with their guards and with the book before and
after. The nested matching loops and the three commands of the book are proved
to be such sequences in `Core/CommandSteps.lean`; every invariant of the engine
is then a case analysis over the six kinds.
-/

namespace MatchingEngine

/-- The order a command is bringing in, with the quantity it has not traded yet. -/
structure IncomingOrder where
  command : OrderCommandRecordV1
  remaining : Int64

/-- The state of the engine between two emissions. -/
structure Moment where
  levels : Side → List PriceLevel
  activeOrders : ActiveOrders
  instrumentId : Option UInt32
  counters : EmissionCounters
  incoming : Option IncomingOrder

/-- The book seen as a moment. -/
def OrderBook.moment (book : OrderBook) (incoming : Option IncomingOrder := none) : Moment where
  levels := book.levels
  activeOrders := book.activeOrders
  instrumentId := book.instrumentId
  counters := book.counters
  incoming := incoming

/-- The loop variables of a moment whose incoming order has the given quantity left. -/
def Moment.vars (m : Moment) (remaining : Int64) : MatchVars where
  incomingRemaining := remaining
  activeOrders := m.activeOrders
  counters := m.counters

/-- A moment with the loop variables and the levels of one side replaced. -/
def Moment.withMatch (m : Moment) (command : OrderCommandRecordV1) (contra : Side)
    (levels : List PriceLevel) (vars : MatchVars) : Moment :=
  { m with
    levels := Function.update m.levels contra levels
    activeOrders := vars.activeOrders
    counters := vars.counters
    incoming := some ⟨command, vars.incomingRemaining⟩ }

/-- Put a queue in front of the worse levels, or drop it when it is empty. -/
def consLevel (priceTicks : Int64) (queue : List RestingOrder) (worse : List PriceLevel) :
    List PriceLevel := if queue = [] then worse else (priceTicks, queue) :: worse

/-- The contra levels after one iteration of the inner loop. -/
def levelsAfterFill (fill : Fill) (priceTicks : Int64) (rest : List RestingOrder)
    (worse : List PriceLevel) : List PriceLevel :=
  if fill.restingOrder.remainingQuantityLots = 0 then consLevel priceTicks rest worse
  else consLevel priceTicks (fill.restingOrder :: rest) worse

/-- The loop variables after one iteration of the inner loop. -/
def varsAfterFill (fill : Fill) : MatchVars :=
  if fill.restingOrder.remainingQuantityLots = 0 then
    fill.vars.dropOrder fill.restingOrder.orderId
  else fill.vars

/-- The levels of a side after `eraseOrderFromPriceLevels`. -/
def erasedEntries (restingOrder : RestingOrder) (levels : List PriceLevel) (s : Side) :
    List PriceLevel :=
  match OrderedMap.findEntries restingOrder.priceTicks levels with
  | none => levels
  | some queue =>
      let queue := queue.eraseP (fun order => order.orderId = restingOrder.orderId)
      if queue.isEmpty then OrderedMap.eraseEntries restingOrder.priceTicks levels
      else OrderedMap.upsertEntries s.Better restingOrder.priceTicks queue (fun _ => queue) levels

/-- The moment after an order was removed and the removal announced. -/
def Moment.afterCancel (m : Moment) (command : OrderCommandRecordV1) (s : Side)
    (restingOrder : RestingOrder) : Moment :=
  { m with
    levels := Function.update m.levels s (erasedEntries restingOrder (m.levels s) s)
    activeOrders := m.activeOrders.erase restingOrder.orderId
    counters := (emitCancelEvent m.counters command restingOrder).2 }

@[simp] theorem Moment.afterCancel_levels (m : Moment) (command : OrderCommandRecordV1) (s : Side)
    (restingOrder : RestingOrder) :
    (m.afterCancel command s restingOrder).levels =
      Function.update m.levels s (erasedEntries restingOrder (m.levels s) s) := rfl

/-- The announcement of a resting remainder. -/
def emitRestEvent (counters : EmissionCounters) (command : OrderCommandRecordV1)
    (remaining : Int64) : ExecutionEventRecordV1 × EmissionCounters :=
  emitOrderEvent counters command
    (if remaining ≠ command.quantityLots then .orderPartiallyFilled else .orderRested)
    (command.quantityLots - remaining) remaining

/-- The moment after the remainder of an order was rested and announced. -/
def Moment.afterRest (m : Moment) (command : OrderCommandRecordV1) (s : Side)
    (remaining : Int64) : Moment :=
  { m with
    levels := Function.update m.levels s
      (OrderedMap.upsertEntries s.Better command.priceTicks []
        (· ++ [restingOrderOf command remaining]) (m.levels s))
    activeOrders := m.activeOrders.insert command.orderId (restingOrderOf command remaining)
    counters := (emitRestEvent m.counters command remaining).2
    incoming := none }

@[simp] theorem Moment.afterRest_levels (m : Moment) (command : OrderCommandRecordV1) (s : Side)
    (remaining : Int64) :
    (m.afterRest command s remaining).levels =
      Function.update m.levels s
        (OrderedMap.upsertEntries s.Better command.priceTicks []
          (· ++ [restingOrderOf command remaining]) (m.levels s)) := rfl

/-- An event emitted while the moment stands as given. -/
def Moment.emission (m : Moment) (command : OrderCommandRecordV1)
    (event : ExecutionEventRecordV1) (subtractions : List (Int64 × Int64) := []) : Emission where
  command := command
  event := event
  levels := m.levels
  activeOrders := m.activeOrders
  subtractions := subtractions

/-- The six kinds of emission, each with the moments before and after it. -/
inductive EmissionStep : Moment → Emission → Moment → Prop
  /-- A refused command changes the event counter only. -/
  | reject {m : Moment} (command : OrderCommandRecordV1) (reason : RejectionReason)
      (hidle : m.incoming = none) :
      EmissionStep m (m.emission command (emitRejectionEvent m.counters command reason).1)
        { m with counters := (emitRejectionEvent m.counters command reason).2 }
  /-- An active order leaves its queue and the index. -/
  | cancel {m : Moment} {command : OrderCommandRecordV1} {restingOrder : RestingOrder} {s : Side}
      (hidle : m.incoming = none)
      (hactive : m.activeOrders.lookup command.orderId = some restingOrder)
      (hside : decodeSide restingOrder.side = some s) :
      EmissionStep m
        ((m.afterCancel command s restingOrder).emission command
          (emitCancelEvent m.counters command restingOrder).1)
        (m.afterCancel command s restingOrder)
  /-- A validated order starts to trade with its whole quantity. -/
  | accept {m : Moment} {command : OrderCommandRecordV1} {s : Side} (hidle : m.incoming = none)
      (hside : decodeSide command.side = some s) (hprice : 0 < command.priceTicks)
      (hquantity : 0 < command.quantityLots) (hnew : command.orderId ∉ m.activeOrders)
      (hinstrument : ∀ instrumentId, m.instrumentId = some instrumentId →
        command.instrumentId = instrumentId) :
      EmissionStep m
        (m.emission command (emitOrderEvent m.counters command .orderAccepted command.quantityLots
          command.quantityLots).1)
        { m with
          instrumentId := some command.instrumentId
          counters := (emitOrderEvent m.counters command .orderAccepted command.quantityLots
            command.quantityLots).2
          incoming := some ⟨command, command.quantityLots⟩ }
  /-- The incoming order trades with the front order of the best contra level. -/
  | trade {m : Moment} {command : OrderCommandRecordV1} {remaining : Int64} {s : Side}
      {priceTicks : Int64} {restingOrder : RestingOrder} {rest : List RestingOrder}
      {worse : List PriceLevel} (hincoming : m.incoming = some ⟨command, remaining⟩)
      (hside : decodeSide command.side = some s) (hremaining : 0 < remaining)
      (hlevels : m.levels s.opposite = (priceTicks, restingOrder :: rest) :: worse)
      (hcross : ¬ s.opposite.Better command.priceTicks priceTicks) :
      EmissionStep m
        (fillEmission command s.opposite m.levels priceTicks restingOrder rest worse
          (m.vars remaining))
        (m.withMatch command s.opposite
          (levelsAfterFill (fillFront command priceTicks restingOrder (m.vars remaining))
            priceTicks rest worse)
          (varsAfterFill (fillFront command priceTicks restingOrder (m.vars remaining))))
  /-- The incoming order has traded everything. -/
  | fill {m : Moment} {command : OrderCommandRecordV1}
      (hincoming : m.incoming = some ⟨command, 0⟩) :
      EmissionStep m
        (m.emission command
          (emitOrderEvent m.counters command .orderFullyFilled command.quantityLots 0).1)
        { m with
          counters :=
            (emitOrderEvent m.counters command .orderFullyFilled command.quantityLots 0).2
          incoming := none }
  /-- What is left of the incoming order joins the back of its own price. -/
  | rest {m : Moment} {command : OrderCommandRecordV1} {remaining : Int64} {s : Side}
      (hincoming : m.incoming = some ⟨command, remaining⟩)
      (hside : decodeSide command.side = some s) (hremaining : remaining ≠ 0)
      (hcross : ∀ level ∈ (m.levels s.opposite).head?,
        remaining ≤ 0 ∨ s.opposite.Better command.priceTicks level.1) :
      EmissionStep m
        ((m.afterRest command s remaining).emission command
          (emitRestEvent m.counters command remaining).1 [(command.quantityLots, remaining)])
        (m.afterRest command s remaining)

/-- Every emission uses up one event number. -/
theorem EmissionStep.eventSequence {m m' : Moment} {e : Emission} (hstep : EmissionStep m e m') :
    e.event.eventSequence = m.counters.nextEventSequence ∧
      m'.counters.nextEventSequence = m.counters.nextEventSequence + 1 := by
  cases hstep with
  | reject | cancel | accept | fill | rest => exact ⟨rfl, rfl⟩
  | trade =>
    refine ⟨rfl, ?_⟩
    change (varsAfterFill _).counters.nextEventSequence = _
    unfold varsAfterFill
    split <;> rfl

/-- Only the matching loops announce trades. -/
theorem EmissionStep.trade_of_eventType {m m' : Moment} {e : Emission} (hstep : EmissionStep m e m')
    (htype : e.event.eventType = ExecutionEventType.tradeExecuted.code) :
    ∃ command remaining s priceTicks restingOrder rest worse,
      m.incoming = some ⟨command, remaining⟩ ∧ decodeSide command.side = some s ∧
      0 < remaining ∧ m.levels s.opposite = (priceTicks, restingOrder :: rest) :: worse ∧
      ¬ s.opposite.Better command.priceTicks priceTicks ∧
      e = fillEmission command s.opposite m.levels priceTicks restingOrder rest worse
        (m.vars remaining) := by
  have hnot : ∀ t : ExecutionEventType, e.event.eventType = t.code → t = .tradeExecuted :=
    fun t ht => ExecutionEventType.code_injective (ht.symm.trans htype)
  cases hstep with
  | reject => cases hnot .orderRejected rfl
  | cancel => cases hnot .orderCancelled rfl
  | accept => cases hnot .orderAccepted rfl
  | fill => cases hnot .orderFullyFilled rfl
  | rest =>
    exfalso
    have hkind := hnot _ rfl
    split at hkind <;> cases hkind
  | trade hincoming hside hremaining hlevels hcross =>
    exact ⟨_, _, _, _, _, _, _, hincoming, hside, hremaining, hlevels, hcross, rfl⟩

/-- A sequence of emission steps. -/
inductive EmissionSteps : Moment → List Emission → Moment → Prop
  | nil (m : Moment) : EmissionSteps m [] m
  | cons {m m' m'' : Moment} {e : Emission} {es : List Emission}
      (hstep : EmissionStep m e m') (hsteps : EmissionSteps m' es m'') :
      EmissionSteps m (e :: es) m''

/-- One emission is a sequence of emissions. -/
theorem EmissionStep.single {m m' : Moment} {e : Emission} (hstep : EmissionStep m e m') :
    EmissionSteps m [e] m' := .cons hstep (.nil m')

/-- Sequences of emissions concatenate. -/
theorem EmissionSteps.append {m m' m'' : Moment} {es es' : List Emission}
    (hfirst : EmissionSteps m es m') (hrest : EmissionSteps m' es' m'') :
    EmissionSteps m (es ++ es') m'' := by
  induction hfirst with
  | nil => exact hrest
  | cons hstep _ ih => exact .cons hstep (ih hrest)

/-- There is a moment behind the first emissions of a sequence. -/
theorem EmissionSteps.of_append {m m'' : Moment} {es es' : List Emission}
    (hsteps : EmissionSteps m (es ++ es') m'') :
    ∃ m', EmissionSteps m es m' ∧ EmissionSteps m' es' m'' := by
  induction es generalizing m with
  | nil => exact ⟨m, .nil m, hsteps⟩
  | cons e es ih =>
    cases hsteps with
    | cons hfirst hrest =>
      obtain ⟨m', hbefore, hafter⟩ := ih hrest
      exact ⟨m', .cons hfirst hbefore, hafter⟩

/-- A property of the emissions so far and the moment reached survives a sequence
of emissions if every single emission preserves it. -/
theorem EmissionSteps.preserves {P : List Emission → Moment → Prop}
    (hstep : ∀ {history m e m'}, EmissionStep m e m' → P history m → P (history ++ [e]) m')
    {m m' : Moment} {es : List Emission} (hsteps : EmissionSteps m es m')
    (history : List Emission) (hm : P history m) : P (history ++ es) m' := by
  induction hsteps generalizing history with
  | nil => simpa using hm
  | cons hfirst _ ih =>
    have hrest := ih _ (hstep hfirst hm)
    rwa [List.append_assoc] at hrest

/-- Every emission of a sequence is a step from a moment at which the preserved
property holds of the emissions before it. -/
theorem EmissionSteps.step_at {P : List Emission → Moment → Prop}
    (hstep : ∀ {history m e m'}, EmissionStep m e m' → P history m → P (history ++ [e]) m')
    {m m' : Moment} {es : List Emission} (hsteps : EmissionSteps m es m')
    (history : List Emission) (hm : P history m) {i : ℕ} {e : Emission} (he : es[i]? = some e) :
    ∃ before after, P (history ++ es.take i) before ∧ EmissionStep before e after := by
  induction hsteps generalizing history i with
  | nil => simp at he
  | @cons m m₁ m₂ first rest hfirst _ ih =>
    cases i with
    | zero =>
      have heq : first = e := by simpa using he
      subst heq
      exact ⟨m, m₁, by simpa using hm, hfirst⟩
    | succ i =>
      obtain ⟨before, after, hP, hbefore⟩ := ih _ (hstep hfirst hm) (by simpa using he)
      refine ⟨before, after, ?_, hbefore⟩
      simpa [List.append_assoc] using hP

end MatchingEngine
