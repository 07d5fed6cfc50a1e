import MatchingEngine.Core.CommandSteps
import MatchingEngine.Library.Ledger

/-!
# Conservation of quantity

A ledger follows the emitted events: an incarnation of an order id is opened by
its acceptance, books every trade that names the id on either side, and is closed
by its complete fill, by the trade that exhausts it as contra order, or by its
cancellation. What the ledger has outstanding is what the engine has outstanding,
in the book or in the order being matched.
-/

namespace MatchingEngine

/-- How an incarnation of an order ended. -/
inductive Ending where
  | filled
  | exhausted
  | cancelled (remainingQuantityLots : Int64)

/-- The trade leaves nothing of its contra order. -/
def Emission.ExhaustsContra (e : Emission) : Prop :=
  (e.activeOrders.lookup e.event.contraOrderId).map RestingOrder.remainingQuantityLots = some 0

instance (e : Emission) : Decidable e.ExhaustsContra := inferInstanceAs (Decidable (_ = _))

/-- Book one event. Rejections and resting announcements open and close nothing. -/
def record (ledger : Ledger UInt64 Ending) (e : Emission) : Ledger UInt64 Ending :=
  if e.event.eventType = ExecutionEventType.orderAccepted.code then
    ledger.start e.event.orderId e.event.quantityLots.toInt
  else if e.event.eventType = ExecutionEventType.tradeExecuted.code then
    let booked := (ledger.trade e.event.orderId e.event.quantityLots.toInt).trade
      e.event.contraOrderId e.event.quantityLots.toInt
    if e.ExhaustsContra then booked.finish e.event.contraOrderId .exhausted else booked
  else if e.event.eventType = ExecutionEventType.orderFullyFilled.code then
    ledger.finish e.event.orderId .filled
  else if e.event.eventType = ExecutionEventType.orderCancelled.code then
    ledger.finish e.event.orderId (.cancelled e.event.remainingQuantityLots)
  else ledger

/-- The ledger of a list of emissions. -/
def ledgerOf (es : List Emission) : Ledger UInt64 Ending := es.foldl record Ledger.empty

/-- A closed incarnation has traded its whole quantity, except for what its
cancellation reports as remaining. -/
def Settled (entry : UInt64 × Account × Ending) : Prop :=
  match entry.2.2 with
  | .filled => entry.2.1.traded = entry.2.1.quantity
  | .exhausted => entry.2.1.traded = entry.2.1.quantity
  | .cancelled remaining => remaining.toInt = entry.2.1.quantity - entry.2.1.traded

/-- The quantities waiting in the book. -/
def restingQuantities (activeOrders : ActiveOrders) (orderId : UInt64) : Option ℤ :=
  (activeOrders.lookup orderId).map fun o => o.remainingQuantityLots.toInt

/-- The quantities waiting in the book and in the incoming order. -/
def Moment.outstanding (m : Moment) : UInt64 → Option ℤ :=
  match m.incoming with
  | none => restingQuantities m.activeOrders
  | some incoming =>
      Function.update (restingQuantities m.activeOrders) incoming.command.orderId
        (some incoming.remaining.toInt)

/-- The ledger and the engine agree, and the arithmetic so far was exact. -/
structure Balanced (es : List Emission) (m : Moment) : Prop where
  /-- The outstanding quantities are those of the engine. -/
  outstanding : (ledgerOf es).outstanding = m.outstanding
  /-- Every event fits the incarnations. -/
  strays : (ledgerOf es).strays = 0
  /-- Every closed incarnation is settled. -/
  ended : ∀ entry ∈ (ledgerOf es).ended, Settled entry
  /-- Traded quantities are positive. -/
  positive : ∀ e ∈ es, e.event.eventType = ExecutionEventType.tradeExecuted.code →
    0 < e.event.quantityLots
  /-- No signed subtraction left its range. -/
  exact : ∀ e ∈ es, ∀ p ∈ e.subtractions, FixedWidth.SubExact p.1 p.2

/-! ## Booking one event -/

/-- A new order in the index. -/
theorem restingQuantities_insert (activeOrders : ActiveOrders) (orderId : UInt64)
    (o : RestingOrder) :
    restingQuantities (activeOrders.insert orderId o) =
      Function.update (restingQuantities activeOrders) orderId
        (some o.remainingQuantityLots.toInt) := by
  funext k
  by_cases h : k = orderId
  · subst h
    simp [restingQuantities]
  · rw [Function.update_of_ne h, restingQuantities, Finmap.lookup_insert_of_ne _ h]
    rfl

/-- An order taken out of the index. -/
theorem restingQuantities_erase (activeOrders : ActiveOrders) (orderId : UInt64) :
    restingQuantities (activeOrders.erase orderId) =
      Function.update (restingQuantities activeOrders) orderId none := by
  funext k
  by_cases h : k = orderId
  · subst h
    simp [restingQuantities]
  · rw [Function.update_of_ne h, restingQuantities, Finmap.lookup_erase_ne h]
    rfl

theorem restingQuantities_of_notMem {activeOrders : ActiveOrders} {orderId : UInt64}
    (h : orderId ∉ activeOrders) : restingQuantities activeOrders orderId = none := by
  rw [restingQuantities, Finmap.lookup_eq_none.mpr h]
  rfl

theorem Moment.outstanding_of_idle {m : Moment} (h : m.incoming = none) :
    m.outstanding = restingQuantities m.activeOrders := by
  unfold outstanding
  rw [h]

theorem Moment.outstanding_of_incoming {m : Moment} {incoming : IncomingOrder}
    (h : m.incoming = some incoming) :
    m.outstanding = Function.update (restingQuantities m.activeOrders) incoming.command.orderId
      (some incoming.remaining.toInt) := by
  unfold outstanding
  rw [h]

theorem record_of_accepted {ledger : Ledger UInt64 Ending} {e : Emission}
    (h : e.event.eventType = ExecutionEventType.orderAccepted.code) :
    record ledger e = ledger.start e.event.orderId e.event.quantityLots.toInt := if_pos h

theorem record_of_trade {ledger : Ledger UInt64 Ending} {e : Emission}
    (h : e.event.eventType = ExecutionEventType.tradeExecuted.code) :
    record ledger e =
      if e.ExhaustsContra then
        ((ledger.trade e.event.orderId e.event.quantityLots.toInt).trade e.event.contraOrderId
          e.event.quantityLots.toInt).finish e.event.contraOrderId .exhausted
      else (ledger.trade e.event.orderId e.event.quantityLots.toInt).trade e.event.contraOrderId
        e.event.quantityLots.toInt := by
  simp [record, h]

theorem record_of_filled {ledger : Ledger UInt64 Ending} {e : Emission}
    (h : e.event.eventType = ExecutionEventType.orderFullyFilled.code) :
    record ledger e = ledger.finish e.event.orderId .filled := by
  simp [record, h]

theorem record_of_cancelled {ledger : Ledger UInt64 Ending} {e : Emission}
    (h : e.event.eventType = ExecutionEventType.orderCancelled.code) :
    record ledger e =
      ledger.finish e.event.orderId (.cancelled e.event.remainingQuantityLots) := by
  simp [record, h]

/-- Events that are not booked leave the ledger alone. -/
theorem record_of_other {ledger : Ledger UInt64 Ending} {e : Emission} {t : ExecutionEventType}
    (h : e.event.eventType = t.code)
    (ht : t = .orderRejected ∨ t = .orderRested ∨ t = .orderPartiallyFilled) :
    record ledger e = ledger := by
  rcases ht with rfl | rfl | rfl <;> simp [record, h]

/-- What one booked event has to do to keep ledger and engine in agreement. -/
theorem Balanced.concat {es : List Emission} {m m' : Moment} {e : Emission} (hm : Balanced es m)
    (ledger : Ledger UInt64 Ending) (hrecord : record (ledgerOf es) e = ledger)
    (houtstanding : ledger.outstanding = m'.outstanding)
    (hstrays : ledger.strays = (ledgerOf es).strays)
    (hended : ∀ entry ∈ ledger.ended, entry ∈ (ledgerOf es).ended ∨ Settled entry)
    (hpositive : e.event.eventType = ExecutionEventType.tradeExecuted.code →
      0 < e.event.quantityLots)
    (hexact : ∀ p ∈ e.subtractions, FixedWidth.SubExact p.1 p.2) : Balanced (es ++ [e]) m' := by
  have hledger : ledgerOf (es ++ [e]) = ledger := by
    simp only [ledgerOf, List.foldl_append, List.foldl_cons, List.foldl_nil]
    exact hrecord
  refine ⟨by rw [hledger, houtstanding], by rw [hledger, hstrays, hm.strays], ?_, ?_, ?_⟩
  · rw [hledger]
    intro entry hentry
    rcases hended entry hentry with h | h
    · exact hm.ended entry h
    · exact h
  · intro e' he'
    rcases List.mem_append.mp he' with h | h
    · exact hm.positive e' h
    · rw [List.mem_singleton.mp h]
      exact hpositive
  · intro e' he'
    rcases List.mem_append.mp he' with h | h
    · exact hm.exact e' h
    · rw [List.mem_singleton.mp h]
      exact hexact

/-- Only the account that is closed joins the closed ones. -/
theorem ended_finish {ledger ledger' : Ledger UInt64 Ending} {entry : UInt64 × Account × Ending}
    (hended : ledger'.ended = ledger.ended ++ [entry]) (hsettled : Settled entry) :
    ∀ entry ∈ ledger'.ended, entry ∈ ledger.ended ∨ Settled entry := by
  rw [hended]
  intro other hother
  rcases List.mem_append.mp hother with h | h
  · exact Or.inl h
  · rw [List.mem_singleton.mp h]
    exact Or.inr hsettled

/-- An event that is not booked and moves no quantity keeps the balance. -/
theorem Balanced.other {es : List Emission} {m m' : Moment} {e : Emission}
    (hm : Balanced es m) {t : ExecutionEventType} (htype : e.event.eventType = t.code)
    (ht : t = .orderRejected ∨ t = .orderRested ∨ t = .orderPartiallyFilled)
    (houtstanding : m'.outstanding = m.outstanding)
    (hexact : ∀ p ∈ e.subtractions, FixedWidth.SubExact p.1 p.2) : Balanced (es ++ [e]) m' := by
  refine hm.concat (ledgerOf es) (record_of_other htype ht) ?_ rfl (fun entry h => Or.inl h) ?_
    hexact
  · rw [hm.outstanding, houtstanding]
  · refine fun h => absurd h (not_isTrade_of_eventType t htype ?_)
    rcases ht with rfl | rfl | rfl <;> decide

/-- The cancellation of an active order closes its incarnation. -/
theorem Balanced.cancel {es : List Emission} {m : Moment} (hm : Balanced es m)
    {command : OrderCommandRecordV1} {o : RestingOrder} (s : Side) (hwf : m.WellFormed)
    (hidle : m.incoming = none) (hactive : m.activeOrders.lookup command.orderId = some o) :
    Balanced (es ++ [(m.afterCancel command s o).emission command
      (emitCancelEvent m.counters command o).1]) (m.afterCancel command s o) := by
  have hid : o.orderId = command.orderId := (hwf.indexed .buy).key_of_lookup hactive
  have hrunning : (ledgerOf es).outstanding command.orderId =
      some o.remainingQuantityLots.toInt := by
    rw [hm.outstanding, Moment.outstanding_of_idle hidle, restingQuantities, hactive]
    rfl
  obtain ⟨⟨hout, hstrays⟩, account, hrest, hended⟩ :=
    Ledger.finish_sets hrunning (Ending.cancelled o.remainingQuantityLots)
  refine hm.concat ((ledgerOf es).finish command.orderId (.cancelled o.remainingQuantityLots))
    (record_of_cancelled rfl) ?_ hstrays (ended_finish hended hrest.symm)
    (fun h => absurd h (not_isTrade_of_eventType .orderCancelled rfl (by decide)))
    (fun p hp => absurd hp List.not_mem_nil)
  rw [hout, hm.outstanding, Moment.outstanding_of_idle hidle,
    Moment.outstanding_of_idle (m := m.afterCancel command s o) hidle]
  unfold Moment.afterCancel
  rw [restingQuantities_erase, hid]

/-- The acceptance of an order opens an incarnation. -/
theorem Balanced.accept {es : List Emission} {m : Moment} (hm : Balanced es m)
    {command : OrderCommandRecordV1} (hidle : m.incoming = none)
    (hnew : command.orderId ∉ m.activeOrders) {m' : Moment}
    (hactive : m'.activeOrders = m.activeOrders)
    (hincoming : m'.incoming = some ⟨command, command.quantityLots⟩) :
    Balanced (es ++ [m.emission command (emitOrderEvent m.counters command .orderAccepted
      command.quantityLots command.quantityLots).1]) m' := by
  have hfree : (ledgerOf es).outstanding command.orderId = none := by
    rw [hm.outstanding, Moment.outstanding_of_idle hidle, restingQuantities_of_notMem hnew]
  obtain ⟨⟨hout, hstrays⟩, hended⟩ := Ledger.start_sets hfree command.quantityLots.toInt
  refine hm.concat ((ledgerOf es).start command.orderId command.quantityLots.toInt)
    (record_of_accepted rfl) ?_ hstrays ?_
    (fun h => absurd h (not_isTrade_of_eventType .orderAccepted rfl (by decide)))
    (fun p hp => absurd hp List.not_mem_nil)
  · rw [hout, hm.outstanding, Moment.outstanding_of_idle hidle,
      Moment.outstanding_of_incoming hincoming, hactive]
  · rw [hended]
    exact fun entry h => Or.inl h

/-- The complete fill of the incoming order closes its incarnation. -/
theorem Balanced.fill {es : List Emission} {m : Moment} (hm : Balanced es m) (hwf : m.WellFormed)
    {command : OrderCommandRecordV1} (hincoming : m.incoming = some ⟨command, 0⟩) {m' : Moment}
    (hactive : m'.activeOrders = m.activeOrders) (hidle : m'.incoming = none) :
    Balanced (es ++ [m.emission command (emitOrderEvent m.counters command .orderFullyFilled
      command.quantityLots 0).1]) m' := by
  have hrunning : (ledgerOf es).outstanding command.orderId = some 0 := by
    rw [hm.outstanding, Moment.outstanding_of_incoming hincoming, Function.update_self]
    rfl
  have hnew := (hwf.incoming _ hincoming).new
  obtain ⟨⟨hout, hstrays⟩, account, hrest, hended⟩ := Ledger.finish_sets hrunning Ending.filled
  refine hm.concat ((ledgerOf es).finish command.orderId .filled) (record_of_filled rfl) ?_
    hstrays (ended_finish hended (sub_eq_zero.mp hrest).symm)
    (fun h => absurd h (not_isTrade_of_eventType .orderFullyFilled rfl (by decide)))
    (fun p hp => absurd hp List.not_mem_nil)
  rw [hout, hm.outstanding, Moment.outstanding_of_incoming hincoming,
    Moment.outstanding_of_idle hidle, hactive, Function.update_idem,
    ← restingQuantities_of_notMem hnew, Function.update_eq_self]

/-- Resting moves the outstanding quantity from the incoming order into the book. -/
theorem Balanced.rest {es : List Emission} {m : Moment} (hm : Balanced es m) (hwf : m.WellFormed)
    {command : OrderCommandRecordV1} {remaining : Int64} (s : Side)
    (hincoming : m.incoming = some ⟨command, remaining⟩) :
    Balanced (es ++ [(m.afterRest command s remaining).emission command
      (emitRestEvent m.counters command remaining).1 [(command.quantityLots, remaining)]])
      (m.afterRest command s remaining) := by
  have hok := hwf.incoming _ hincoming
  have houtstanding : (m.afterRest command s remaining).outstanding = m.outstanding := by
    rw [Moment.outstanding_of_incoming hincoming,
      Moment.outstanding_of_idle (m := m.afterRest command s remaining) rfl]
    exact restingQuantities_insert _ _ _
  have hexact : ∀ p ∈ [(command.quantityLots, remaining)], FixedWidth.SubExact p.1 p.2 := by
    intro p hp
    rw [List.mem_singleton.mp hp]
    exact FixedWidth.toInt_sub_of_le hok.nonneg hok.le_quantity
  by_cases hpartial : remaining ≠ command.quantityLots
  · have htype : (emitRestEvent m.counters command remaining).1.eventType =
        ExecutionEventType.orderPartiallyFilled.code :=
      congrArg ExecutionEventType.code (if_pos hpartial)
    exact hm.other htype (by decide) houtstanding hexact
  · have htype : (emitRestEvent m.counters command remaining).1.eventType =
        ExecutionEventType.orderRested.code :=
      congrArg ExecutionEventType.code (if_neg hpartial)
    exact hm.other htype (by decide) houtstanding hexact

/-- A trade is booked for both orders, and closes the account of a contra order of which
nothing is left. -/
theorem record_fillEmission (ledger : Ledger UInt64 Ending) (command : OrderCommandRecordV1)
    (contra : Side) (levels : Side → List PriceLevel) (priceTicks : Int64) (o : RestingOrder)
    (rest : List RestingOrder) (worse : List PriceLevel) (vars : MatchVars) :
    let quantity := (min vars.incomingRemaining o.remainingQuantityLots).toInt
    let booked := (ledger.trade command.orderId quantity).trade o.orderId quantity
    record ledger (fillEmission command contra levels priceTicks o rest worse vars) =
      if (fillFront command priceTicks o vars).restingOrder.remainingQuantityLots = 0 then
        booked.finish o.orderId .exhausted
      else booked := by
  intro quantity booked
  rw [record_of_trade rfl]
  refine if_congr ?_ rfl rfl
  change (Finmap.lookup o.orderId (vars.activeOrders.insert o.orderId _)).map _ = some 0 ↔ _
  rw [Finmap.lookup_insert]
  exact Option.some_inj

/-- Both subtractions of a trade are exact. -/
theorem FillExact.subExact {command : OrderCommandRecordV1} {priceTicks : Int64}
    {o : RestingOrder} {vars : MatchVars}
    (hexact : FillExact vars.incomingRemaining o (fillFront command priceTicks o vars)) :
    ∀ p ∈ [(vars.incomingRemaining, min vars.incomingRemaining o.remainingQuantityLots),
      (o.remainingQuantityLots, min vars.incomingRemaining o.remainingQuantityLots)],
      FixedWidth.SubExact p.1 p.2 := by
  intro p hp
  rcases List.mem_cons.mp hp with rfl | hp
  · exact hexact.incoming
  · rw [List.mem_singleton.mp hp]
    exact hexact.resting

/-- A trade is booked for both orders, and closes the incarnation of a contra
order it exhausts. -/
theorem Balanced.trade {es : List Emission} {m : Moment} (hm : Balanced es m) (hwf : m.WellFormed)
    {command : OrderCommandRecordV1} {remaining : Int64} {s : Side} {priceTicks : Int64}
    {o : RestingOrder} {rest : List RestingOrder} {worse : List PriceLevel}
    (hincoming : m.incoming = some ⟨command, remaining⟩) (hremaining : 0 < remaining)
    (hlevels : m.levels s.opposite = (priceTicks, o :: rest) :: worse) :
    Balanced (es ++ [fillEmission command s.opposite m.levels priceTicks o rest worse
        (m.vars remaining)])
      (m.withMatch command s.opposite
        (levelsAfterFill (fillFront command priceTicks o (m.vars remaining)) priceTicks rest worse)
        (varsAfterFill (fillFront command priceTicks o (m.vars remaining)))) := by
  have hexact := fillFront_exact command priceTicks (m.vars remaining) hremaining
    (hwf.front hlevels).remaining
  have hlookup := hwf.lookup_front hlevels
  have hne : o.orderId ≠ command.orderId := by
    intro h
    exact (hwf.incoming _ hincoming).new (h ▸ Finmap.mem_iff.mpr ⟨o, hlookup⟩)
  have hbook := hm.outstanding
  rw [Moment.outstanding_of_incoming hincoming] at hbook
  have hincomingRunning : (ledgerOf es).outstanding command.orderId = some remaining.toInt := by
    rw [hbook, Function.update_self]
  have hcontraRunning : (ledgerOf es).outstanding o.orderId =
      some o.remainingQuantityLots.toInt := by
    rw [hbook, Function.update_of_ne hne, restingQuantities, hlookup]
    rfl
  obtain ⟨houtstanding, hstrays, hended⟩ := Ledger.trade_trade_sets hincomingRunning
    hcontraRunning hne (min remaining o.remainingQuantityLots).toInt
  -- What the two bookings leave is what the loop body computes.
  obtain ⟨fill, hfill⟩ : ∃ fill, fill = fillFront command priceTicks o (m.vars remaining) :=
    ⟨_, rfl⟩
  have hindex : fill.vars.activeOrders = m.activeOrders.insert o.orderId fill.restingOrder := by
    rw [hfill]
    rfl
  have hincomingLeft : remaining.toInt - (min remaining o.remainingQuantityLots).toInt =
      fill.vars.incomingRemaining.toInt := hfill ▸ hexact.incoming.symm
  have hrestingLeft : o.remainingQuantityLots.toInt -
      (min remaining o.remainingQuantityLots).toInt =
      fill.restingOrder.remainingQuantityLots.toInt := hfill ▸ hexact.resting.symm
  rw [hbook, Function.update_idem, hincomingLeft, hrestingLeft] at houtstanding
  obtain ⟨booked, hbooked⟩ : ∃ booked, booked = ((ledgerOf es).trade command.orderId
      (min remaining o.remainingQuantityLots).toInt).trade o.orderId
      (min remaining o.remainingQuantityLots).toInt := ⟨_, rfl⟩
  rw [← hbooked] at houtstanding hended hstrays
  have hrecord := record_fillEmission (ledgerOf es) command s.opposite m.levels priceTicks o rest
    worse (m.vars remaining)
  dsimp only at hrecord
  rw [show (m.vars remaining).incomingRemaining = remaining from rfl, ← hbooked, ← hfill]
    at hrecord
  have hsubtractions := hexact.subExact
  rw [← hfill]
  by_cases hgone : fill.restingOrder.remainingQuantityLots = 0
  · rw [if_pos hgone] at hrecord
    have hcontraLeft : booked.outstanding o.orderId = some 0 := by
      rw [houtstanding, Function.update_self, hgone]
      rfl
    obtain ⟨⟨hfinished, hfinishedStrays⟩, account, hrest, hfinishedEnded⟩ :=
      Ledger.finish_sets hcontraLeft Ending.exhausted
    have hvars : varsAfterFill fill = fill.vars.dropOrder o.orderId := by
      rw [varsAfterFill, if_pos hgone, hfill]
      rfl
    rw [hended] at hfinishedEnded
    refine hm.concat (booked.finish o.orderId .exhausted) hrecord ?_
      (hfinishedStrays.trans hstrays) (ended_finish hfinishedEnded (sub_eq_zero.mp hrest).symm)
      (fun _ => FixedWidth.pos_iff.mpr hexact.quantity_pos) hsubtractions
    rw [hfinished, houtstanding, Function.update_idem, hvars,
      Moment.outstanding_of_incoming (m := m.withMatch _ _ _ _) rfl]
    unfold Moment.withMatch MatchVars.dropOrder
    rw [hindex, restingQuantities_erase, restingQuantities_insert, Function.update_idem,
      Function.update_comm hne]
  · rw [if_neg hgone] at hrecord
    have hvars : varsAfterFill fill = fill.vars := if_neg hgone
    refine hm.concat booked hrecord ?_ hstrays (fun entry hentry => Or.inl (hended ▸ hentry))
      (fun _ => FixedWidth.pos_iff.mpr hexact.quantity_pos) hsubtractions
    rw [houtstanding, hvars, Moment.outstanding_of_incoming (m := m.withMatch _ _ _ _) rfl]
    unfold Moment.withMatch
    rw [hindex, restingQuantities_insert, Function.update_comm hne]

/-- Every emission from a well-formed moment keeps the balance. -/
theorem EmissionStep.balanced {es : List Emission} {m m' : Moment} {e : Emission}
    (hstep : EmissionStep m e m') (hwf : m.WellFormed) (hm : Balanced es m) :
    Balanced (es ++ [e]) m' := by
  cases hstep with
  | reject command reason hidle =>
    exact hm.other (t := .orderRejected) rfl (by decide) rfl fun p hp => absurd hp List.not_mem_nil
  | cancel hidle hactive hside => exact hm.cancel _ hwf hidle hactive
  | accept hidle hside hprice hquantity hnew hinstrument => exact hm.accept hidle hnew rfl rfl
  | trade hincoming hside hremaining hlevels hcross =>
    exact hm.trade hwf hincoming hremaining hlevels
  | fill hincoming => exact hm.fill hwf hincoming rfl rfl
  | rest hincoming hside hremaining hcross => exact hm.rest hwf _ hincoming

/-- The empty book owes nothing. -/
theorem OrderBook.balanced_create (firstEventSequence : UInt64) :
    Balanced [] (OrderBook.create firstEventSequence).moment where
  outstanding := by
    funext k
    rfl
  strays := rfl
  ended entry h := absurd h List.not_mem_nil
  positive e h := absurd h List.not_mem_nil
  exact e h := absurd h List.not_mem_nil

/-- After every run the ledger of its events has an incarnation running for
exactly the active orders, with the traded and the remaining quantity adding up
to the accepted one; closed incarnations are settled; no event falls outside an
incarnation; trades are positive and all subtractions exact. -/
theorem quantity_is_conserved (firstEventSequence : UInt64)
    (commands : List OrderCommandRecordV1) :
    let fresh := InstrumentEngine.create firstEventSequence
    let book := (fresh.applyAll commands).2.orderBook
    let emissions := fresh.emissionsAll commands
    let ledger := ledgerOf emissions
    emissions.map Emission.event = (fresh.applyAll commands).1 ∧
      (∀ orderId, orderId ∈ ledger.running ↔ orderId ∈ book.activeOrders) ∧
      (∀ orderId account, ledger.running.lookup orderId = some account →
        account.traded + (book.remainingQuantity orderId).toInt = account.quantity) ∧
      (∀ entry ∈ ledger.ended, Settled entry) ∧
      ledger.strays = 0 ∧
      (∀ e ∈ emissions, e.event.eventType = ExecutionEventType.tradeExecuted.code →
        0 < e.event.quantityLots) ∧
      ∀ e ∈ emissions, ∀ p ∈ e.subtractions, FixedWidth.SubExact p.1 p.2 := by
  intro fresh book emissions ledger
  have hbalanced : Balanced emissions book.moment := InstrumentEngine.applyAll_preserves
    (fun hstep hwf hm => hstep.balanced hwf hm) firstEventSequence
    (OrderBook.balanced_create firstEventSequence) commands
  have hbook : ∀ orderId, (ledger.running.lookup orderId).map Account.outstanding =
      (book.activeOrders.lookup orderId).map fun o => o.remainingQuantityLots.toInt :=
    fun orderId => congrFun hbalanced.outstanding orderId
  refine ⟨fresh.emissionsAll_events commands, fun orderId => ?_, fun orderId account hlookup => ?_,
    hbalanced.ended, hbalanced.strays, hbalanced.positive, hbalanced.exact⟩
  · rw [Finmap.mem_iff, Finmap.mem_iff, ← Option.isSome_iff_exists, ← Option.isSome_iff_exists,
      ← Option.isSome_map (f := Account.outstanding), hbook orderId, Option.isSome_map]
  · have hquantity := hbook orderId
    rw [hlookup] at hquantity
    obtain ⟨o, ho, hrest⟩ := Option.map_eq_some_iff.mp hquantity.symm
    have hremaining : book.remainingQuantity orderId = o.remainingQuantityLots := by
      unfold OrderBook.remainingQuantity
      rw [ho]
    rw [hremaining, hrest]
    unfold Account.outstanding
    omega

end MatchingEngine
