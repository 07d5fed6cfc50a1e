import MatchingEngine.Core.WellFormed

/-!
# Commands as sequences of emissions

The matching loops, resting and cancelling of `Core/OrderBook.lean` are shown to
perform exactly the steps of `EmissionStep`, so that every property proved for
the six kinds of emission holds of the code.
-/

namespace MatchingEngine

/-! ## The matching loops -/

@[simp] theorem Moment.withMatch_levels (m : Moment) (command : OrderCommandRecordV1)
    (contra : Side) (levels : List PriceLevel) (vars : MatchVars) :
    (m.withMatch command contra levels vars).levels = Function.update m.levels contra levels := rfl

/-- Replacing the contra side twice replaces it once. -/
theorem Moment.withMatch_withMatch (m : Moment) (command : OrderCommandRecordV1) (contra : Side)
    (levels levels' : List PriceLevel) (vars vars' : MatchVars) :
    (m.withMatch command contra levels vars).withMatch command contra levels' vars' =
      m.withMatch command contra levels' vars' := by
  unfold Moment.withMatch
  simp only [Function.update_idem]

/-- A trade emission shows the levels of the other side only. -/
theorem fillEmission_update (command : OrderCommandRecordV1) (contra : Side)
    (levels : Side → List PriceLevel) (own : List PriceLevel) (priceTicks : Int64)
    (o : RestingOrder) (rest : List RestingOrder) (worse : List PriceLevel) (vars : MatchVars) :
    fillEmission command contra (Function.update levels contra own) priceTicks o rest worse vars =
      fillEmission command contra levels priceTicks o rest worse vars := by
  unfold fillEmission
  simp only [Function.update_idem]

/-- The inner loop performs one trade step per iteration. -/
theorem matchQueue_steps {m : Moment} {command : OrderCommandRecordV1} {s : Side}
    {priceTicks : Int64} (worse : List PriceLevel) (hside : decodeSide command.side = some s)
    (hcross : ¬ s.opposite.Better command.priceTicks priceTicks) (queue : List RestingOrder)
    (vars : MatchVars) :
    EmissionSteps (m.withMatch command s.opposite (consLevel priceTicks queue worse) vars)
      (queueEmissions command s.opposite m.levels priceTicks worse queue vars)
      (m.withMatch command s.opposite
        (consLevel priceTicks (matchQueue command priceTicks queue vars).left worse)
        (matchQueue command priceTicks queue vars).vars) := by
  induction queue generalizing vars with
  | nil => exact .nil _
  | cons o rest ih =>
    simp only [queueEmissions, matchQueue]
    by_cases hpos : 0 < vars.incomingRemaining
    · have hlevels : (m.withMatch command s.opposite (consLevel priceTicks (o :: rest) worse)
          vars).levels s.opposite = (priceTicks, o :: rest) :: worse := by simp [consLevel]
      have hstep := EmissionStep.trade rfl hside hpos hlevels hcross
      rw [Moment.withMatch_levels, fillEmission_update, Moment.withMatch_withMatch] at hstep
      simp only [if_pos hpos]
      by_cases hgone : (fillFront command priceTicks o vars).restingOrder.remainingQuantityLots = 0
      · simp only [if_pos hgone]
        refine .cons ?_ (ih _)
        have hlevels : levelsAfterFill (fillFront command priceTicks o vars) priceTicks rest worse =
            consLevel priceTicks rest worse := if_pos hgone
        have hvars : varsAfterFill (fillFront command priceTicks o vars) =
            (fillFront command priceTicks o vars).vars.dropOrder
              (fillFront command priceTicks o vars).restingOrder.orderId := if_pos hgone
        rw [← hlevels, ← hvars]
        exact hstep
      · simp only [if_neg hgone]
        refine EmissionStep.single ?_
        have hlevels : levelsAfterFill (fillFront command priceTicks o vars) priceTicks rest worse =
            consLevel priceTicks ((fillFront command priceTicks o vars).restingOrder :: rest)
              worse := if_neg hgone
        have hvars : varsAfterFill (fillFront command priceTicks o vars) =
            (fillFront command priceTicks o vars).vars := if_neg hgone
        rw [← hlevels, ← hvars]
        exact hstep
    · simp only [if_neg hpos]
      exact .nil _

/-- The outer loop performs the trade steps of its inner loops. -/
theorem matchLevels_steps {m : Moment} {command : OrderCommandRecordV1} {s : Side}
    (hside : decodeSide command.side = some s) {levels : List PriceLevel}
    (hlevels : ∀ level ∈ levels, level.2 ≠ []) (vars : MatchVars) :
    EmissionSteps (m.withMatch command s.opposite levels vars)
      (levelEmissions command s.opposite m.levels levels vars)
      (m.withMatch command s.opposite (matchLevels command s.opposite levels vars).left
        (matchLevels command s.opposite levels vars).vars) := by
  induction levels generalizing vars with
  | nil => exact .nil _
  | cons level worse ih =>
    obtain ⟨price, queue⟩ := level
    simp only [levelEmissions, matchLevels]
    by_cases hpos : 0 < vars.incomingRemaining
    · by_cases hcross : s.opposite.Better command.priceTicks price
      · simp only [if_pos hpos, if_pos hcross]
        exact .nil _
      · have hqueue : queue ≠ [] := hlevels _ List.mem_cons_self
        have hinner := matchQueue_steps (m := m) worse hside hcross queue vars
        have hcons : consLevel price queue worse = (price, queue) :: worse := if_neg hqueue
        rw [hcons] at hinner
        simp only [if_pos hpos, if_neg hcross]
        by_cases hempty : (matchQueue command price queue vars).left = []
        · have hnext := ih (fun level hlevel => hlevels level (List.mem_cons_of_mem _ hlevel))
            (matchQueue command price queue vars).vars
          rw [hempty, show consLevel price [] worse = worse from if_pos rfl] at hinner
          simp only [hempty, List.isEmpty_nil, if_true]
          exact hinner.append hnext
        · have hleft : consLevel price (matchQueue command price queue vars).left worse =
              (price, (matchQueue command price queue vars).left) :: worse := if_neg hempty
          rw [hleft] at hinner
          simp only [List.isEmpty_iff, hempty, if_false, List.append_nil]
          exact hinner
    · simp only [if_neg hpos]
      exact .nil _

/-- An inner loop that leaves an order has used up the incoming quantity. -/
theorem matchQueue_exit {command : OrderCommandRecordV1} {priceTicks : Int64}
    {queue : List RestingOrder} {vars : MatchVars}
    (hleft : (matchQueue command priceTicks queue vars).left ≠ []) :
    (matchQueue command priceTicks queue vars).vars.incomingRemaining ≤ 0 := by
  induction queue generalizing vars with
  | nil => exact absurd rfl hleft
  | cons o rest ih =>
    simp only [matchQueue] at hleft ⊢
    by_cases hpos : 0 < vars.incomingRemaining
    · simp only [if_pos hpos] at hleft ⊢
      by_cases hgone : (fillFront command priceTicks o vars).restingOrder.remainingQuantityLots = 0
      · simp only [if_pos hgone] at hleft ⊢
        exact ih hleft
      · simp only [if_neg hgone]
        change vars.incomingRemaining - min vars.incomingRemaining o.remainingQuantityLots ≤ 0
        change o.remainingQuantityLots - min vars.incomingRemaining o.remainingQuantityLots ≠ 0
          at hgone
        rcases min_choice vars.incomingRemaining o.remainingQuantityLots with hmin | hmin
        · rw [hmin, Int64.sub_self]
        · rw [hmin, Int64.sub_self] at hgone
          exact absurd rfl hgone
    · simp only [if_neg hpos]
      exact not_lt.mp hpos

/-- The outer loop stops when the incoming quantity is used up or when the
limit does not reach the best price that is left. -/
theorem matchLevels_exit {command : OrderCommandRecordV1} {contra : Side}
    (levels : List PriceLevel) (vars : MatchVars) :
    ∀ level ∈ (matchLevels command contra levels vars).left.head?,
      (matchLevels command contra levels vars).vars.incomingRemaining ≤ 0 ∨
        contra.Better command.priceTicks level.1 := by
  induction levels generalizing vars with
  | nil => exact fun level hlevel => absurd hlevel (by simp [matchLevels])
  | cons level worse ih =>
    obtain ⟨price, queue⟩ := level
    simp only [matchLevels]
    by_cases hpos : 0 < vars.incomingRemaining
    · by_cases hcross : contra.Better command.priceTicks price
      · simp only [if_pos hpos, if_pos hcross]
        rintro level hlevel
        obtain rfl := Option.some.inj hlevel
        exact Or.inr hcross
      · simp only [if_pos hpos, if_neg hcross]
        by_cases hempty : (matchQueue command price queue vars).left = []
        · simp only [hempty, List.isEmpty_nil, if_true]
          exact ih _
        · simp only [List.isEmpty_iff, hempty, if_false]
          exact fun level _ => Or.inl (matchQueue_exit hempty)
    · simp only [if_neg hpos]
      exact fun level _ => Or.inl (not_lt.mp hpos)

/-! ## Moments of changed books -/

theorem OrderBook.levels_withAsks (book : OrderBook) (asks : PriceLevels .sell)
    (activeOrders : ActiveOrders) (counters : EmissionCounters) :
    OrderBook.levels { book with
      asks := asks, activeOrders := activeOrders, counters := counters } =
      Function.update book.levels .sell asks.entries := by
  funext s
  cases s <;> rfl

theorem OrderBook.levels_withBids (book : OrderBook) (bids : PriceLevels .buy)
    (activeOrders : ActiveOrders) (counters : EmissionCounters) :
    OrderBook.levels { book with
      bids := bids, activeOrders := activeOrders, counters := counters } =
      Function.update book.levels .buy bids.entries := by
  funext s
  cases s <;> rfl

/-- The prices of a side are in their order. -/
theorem OrderBook.levels_sorted (book : OrderBook) (s : Side) :
    (book.levels s).Pairwise (fun a b => s.Better a.1 b.1) := by
  cases s with
  | buy => exact book.bids.sorted
  | sell => exact book.asks.sorted

/-- The side an accepted order is matched as is the side it names. -/
theorem incomingSide_eq {command : OrderCommandRecordV1} {s : Side}
    (hside : decodeSide command.side = some s) : incomingSide command = s := by
  unfold incomingSide
  rw [hside]
  cases s <;> rfl

/-- `matchIncoming` returns the quantity left and the book whose contra side and
loop variables are those of the outer loop. -/
theorem OrderBook.matchIncoming_moment (book : OrderBook) {command : OrderCommandRecordV1}
    {s : Side} (hside : decodeSide command.side = some s) :
    (book.matchIncoming command).1 =
        (matchLevels command s.opposite (book.levels s.opposite)
          (book.matchVars command)).vars.incomingRemaining ∧
      (book.matchIncoming command).2.2.moment
          (some ⟨command, (book.matchIncoming command).1⟩) =
        book.moment.withMatch command s.opposite
          (matchLevels command s.opposite (book.levels s.opposite) (book.matchVars command)).left
          (matchLevels command s.opposite (book.levels s.opposite)
            (book.matchVars command)).vars := by
  unfold matchIncoming
  cases s with
  | buy =>
    simp only [hside, if_true]
    refine ⟨rfl, ?_⟩
    unfold moment Moment.withMatch
    simp only [matchBuyOrderAgainstAsks, levels_withAsks]
    rfl
  | sell =>
    simp only [hside, reduceCtorEq, Option.some.injEq, if_false]
    refine ⟨rfl, ?_⟩
    unfold moment Moment.withMatch
    simp only [matchSellOrderAgainstBids, levels_withBids]
    rfl

/-- The trades of `matchIncoming` are those of the outer loop. -/
theorem OrderBook.matchIncoming_events (book : OrderBook) {command : OrderCommandRecordV1}
    {s : Side} (hside : decodeSide command.side = some s) :
    (book.matchIncoming command).2.1 =
      (matchLevels command s.opposite (book.levels s.opposite)
        (book.matchVars command)).events := by
  rw [← matchEmissions_events, matchEmissions, incomingSide_eq hside, levelEmissions_events]

/-- `restOrder` and the event counter, as a moment. -/
theorem OrderBook.restOrder_moment (book : OrderBook) {command : OrderCommandRecordV1} {s : Side}
    (hside : decodeSide command.side = some s) (remaining : Int64) :
    ({ book.restOrder command remaining with
      counters := (emitRestEvent book.counters command remaining).2 } : OrderBook).moment =
      (book.moment (some ⟨command, remaining⟩)).afterRest command s remaining := by
  cases s with
  | buy =>
    unfold moment Moment.afterRest restOrder
    simp only [hside, if_true, levels_withBids]
    rfl
  | sell =>
    unfold moment Moment.afterRest restOrder
    simp only [hside, reduceCtorEq, Option.some.injEq, if_false, levels_withAsks]
    rfl

/-- The entries left by `eraseOrderFromPriceLevels`. -/
theorem eraseOrderFromPriceLevels_entries {s : Side} (levels : PriceLevels s) (o : RestingOrder) :
    (eraseOrderFromPriceLevels levels o).entries = erasedEntries o levels.entries s := by
  unfold eraseOrderFromPriceLevels erasedEntries OrderedMap.find?
  cases OrderedMap.findEntries o.priceTicks levels.entries with
  | none => rfl
  | some queue =>
    simp only
    split <;> rfl

@[simp] theorem OrderBook.removeCancelledOrder_counters (book : OrderBook) (o : RestingOrder) :
    (book.removeCancelledOrder o).counters = book.counters := by
  unfold removeCancelledOrder
  split <;> rfl

/-- A cancelled book, as a moment. -/
theorem OrderBook.cancelled_moment (book : OrderBook) (command : OrderCommandRecordV1)
    {o : RestingOrder} {s : Side} (hside : decodeSide o.side = some s) :
    (book.cancelled command o).moment = book.moment.afterCancel command s o := by
  cases s with
  | buy =>
    unfold moment Moment.afterCancel cancelled
    simp only [removeCancelledOrder, hside, if_true, levels_withBids,
      eraseOrderFromPriceLevels_entries]
    rfl
  | sell =>
    unfold moment Moment.afterCancel cancelled
    simp only [removeCancelledOrder, hside, reduceCtorEq, Option.some.injEq, if_false,
      levels_withAsks, eraseOrderFromPriceLevels_entries]
    rfl

/-! ## Validation -/

/-- What a new-order command promises when its validation succeeds. -/
structure NewOrderValid (book : OrderBook) (command : OrderCommandRecordV1) : Prop where
  kind : decodeCommandType command.commandType = some .newOrder
  side : ∃ s, decodeSide command.side = some s
  price : 0 < command.priceTicks
  quantity : 0 < command.quantityLots
  new : command.orderId ∉ book.activeOrders
  instrument : ∀ instrumentId, book.instrumentId = some instrumentId →
    command.instrumentId = instrumentId
  timeInForce : decodeTimeInForce command = some .gtc

/-- `validate_order_book_instrument` accepts exactly the bound instrument. -/
theorem OrderBook.validateOrderBookInstrument_eq_none_iff (book : OrderBook)
    (command : OrderCommandRecordV1) :
    book.validateOrderBookInstrument command = .none ↔
      ∀ instrumentId, book.instrumentId = some instrumentId →
        command.instrumentId = instrumentId := by
  unfold validateOrderBookInstrument
  cases book.instrumentId with
  | none => simp
  | some instrumentId => simp

/-- `validate_new_order` accepts exactly the valid commands. -/
theorem OrderBook.validateNewOrder_eq_none_iff (book : OrderBook)
    (command : OrderCommandRecordV1) :
    book.validateNewOrder command = .none ↔ NewOrderValid book command := by
  constructor
  · intro h
    unfold validateNewOrder at h
    split_ifs at h with hkind hside hprice hquantity hnew hinstrument htif
    · exact absurd h hinstrument
    · exact ⟨not_not.mp hkind, Option.ne_none_iff_exists'.mp hside, not_le.mp hprice,
        not_le.mp hquantity, hnew,
        (book.validateOrderBookInstrument_eq_none_iff command).mp (not_not.mp hinstrument),
        not_not.mp htif⟩
  · rintro ⟨hkind, ⟨s, hside⟩, hprice, hquantity, hnew, hinstrument, htif⟩
    have hbound := (book.validateOrderBookInstrument_eq_none_iff command).mpr hinstrument
    simp [validateNewOrder, hkind, hside, not_le.mpr hprice, not_le.mpr hquantity, hnew, hbound,
      htif]

/-- What a replace command promises when its validation succeeds. -/
structure ReplaceOrderValid (book : OrderBook) (command : OrderCommandRecordV1)
    (restingOrder : RestingOrder) : Prop where
  active : book.activeOrders.lookup command.orderId = some restingOrder
  instrument : restingOrder.instrumentId = command.instrumentId
  replacement_ne_zero : command.replacementOrderId ≠ 0
  replacement_ne : command.replacementOrderId ≠ command.orderId
  replacement_new : command.replacementOrderId ∉ book.activeOrders
  side : ∃ s, decodeSide command.side = some s
  price : 0 < command.priceTicks
  quantity : 0 < command.quantityLots
  timeInForce : decodeTimeInForce command = some .gtc

/-- A replace command that passes `validate_replace_order` names an active order
and is a valid replacement of it. -/
theorem OrderBook.replaceOrderValid_of_validate {book : OrderBook}
    {command : OrderCommandRecordV1} (h : book.validateReplaceOrder command = .none) :
    ∃ restingOrder, ReplaceOrderValid book command restingOrder := by
  unfold validateReplaceOrder findOrder at h
  split at h
  · cases h
  · cases hactive : book.activeOrders.lookup command.orderId with
    | none =>
      rw [hactive] at h
      cases h
    | some restingOrder =>
      rw [hactive] at h
      simp only at h
      split_ifs at h with hinstrument hid hduplicate hside hprice hquantity htif
      obtain ⟨hzero, hne⟩ := not_or.mp hid
      exact ⟨restingOrder, hactive, not_not.mp hinstrument, hzero, hne, hduplicate,
        Option.ne_none_iff_exists'.mp hside, not_le.mp hprice, not_le.mp hquantity,
        not_not.mp htif⟩

/-! ## The commands -/

theorem OrderBook.bindInstrumentIfNeeded_levels (book : OrderBook) (instrumentId : UInt32) :
    (book.bindInstrumentIfNeeded instrumentId).levels = book.levels := by
  unfold bindInstrumentIfNeeded
  split <;> rfl

@[simp] theorem OrderBook.bindInstrumentIfNeeded_counters (book : OrderBook)
    (instrumentId : UInt32) :
    (book.bindInstrumentIfNeeded instrumentId).counters = book.counters := by
  unfold bindInstrumentIfNeeded
  split <;> rfl

@[simp] theorem OrderBook.bindInstrumentIfNeeded_activeOrders (book : OrderBook)
    (instrumentId : UInt32) :
    (book.bindInstrumentIfNeeded instrumentId).activeOrders = book.activeOrders := by
  unfold bindInstrumentIfNeeded
  split <;> rfl

/-- A valid command leaves the book bound to its own instrument. -/
theorem NewOrderValid.bindInstrument {book : OrderBook} {command : OrderCommandRecordV1}
    (hvalid : NewOrderValid book command) :
    (book.bindInstrumentIfNeeded command.instrumentId).instrumentId =
      some command.instrumentId := by
  unfold OrderBook.bindInstrumentIfNeeded
  cases hbound : book.instrumentId with
  | none => rfl
  | some instrumentId => rw [hvalid.instrument _ hbound, hbound]

/-- A rejection is one rejecting emission. -/
theorem OrderBook.reject_steps (book : OrderBook) (command : OrderCommandRecordV1)
    (reason : RejectionReason) :
    EmissionSteps book.moment (book.rejectEmissions command reason)
      (book.reject command reason).2.moment :=
  EmissionStep.single (EmissionStep.reject command reason rfl)

/-- Accepting a valid order announces it and binds the book to its instrument. -/
theorem NewOrderValid.acceptIncoming_eq {book : OrderBook} {command : OrderCommandRecordV1}
    (hvalid : NewOrderValid book command) (incoming : Option IncomingOrder) :
    (book.acceptIncoming command).1 =
        (emitOrderEvent book.counters command .orderAccepted command.quantityLots
          command.quantityLots).1 ∧
      (book.acceptIncoming command).2.moment incoming =
        { book.moment incoming with
          instrumentId := some command.instrumentId
          counters := (emitOrderEvent book.counters command .orderAccepted command.quantityLots
            command.quantityLots).2 } := by
  have hlevels : (book.acceptIncoming command).2.levels = book.levels := by
    rw [← book.bindInstrumentIfNeeded_levels command.instrumentId]
    funext t
    cases t <;> rfl
  have hcounters := book.bindInstrumentIfNeeded_counters command.instrumentId
  have hactive : (book.acceptIncoming command).2.activeOrders = book.activeOrders :=
    book.bindInstrumentIfNeeded_activeOrders command.instrumentId
  have hbound : (book.acceptIncoming command).2.instrumentId = some command.instrumentId :=
    hvalid.bindInstrument
  constructor
  · unfold OrderBook.acceptIncoming
    simp only [hcounters]
  · unfold OrderBook.moment
    rw [hlevels, hactive, hbound]
    unfold OrderBook.acceptIncoming
    simp only [hcounters]

/-- Accepting a valid order is one accepting emission. -/
theorem NewOrderValid.accept_step {book : OrderBook} {command : OrderCommandRecordV1}
    (hvalid : NewOrderValid book command) :
    EmissionStep book.moment
      ((book.acceptIncoming command).2.emission command (book.acceptIncoming command).1)
      ((book.acceptIncoming command).2.moment (some ⟨command, command.quantityLots⟩)) := by
  obtain ⟨s, hside⟩ := hvalid.side
  obtain ⟨hevent, hmoment⟩ := hvalid.acceptIncoming_eq (some ⟨command, command.quantityLots⟩)
  have hstep := EmissionStep.accept (m := book.moment) rfl hside hvalid.price hvalid.quantity
    hvalid.new hvalid.instrument
  have hlevels := congrArg Moment.levels hmoment
  have hactive := congrArg Moment.activeOrders hmoment
  unfold OrderBook.emission
  rw [hmoment, hevent]
  change (book.acceptIncoming command).2.levels = book.levels at hlevels
  change (book.acceptIncoming command).2.activeOrders = book.activeOrders at hactive
  rw [hlevels, hactive]
  exact hstep

/-- Matching a valid order performs the trade steps of its emissions. -/
theorem OrderBook.matchIncoming_steps (book : OrderBook) {command : OrderCommandRecordV1}
    {s : Side} (hside : decodeSide command.side = some s)
    (hlevels : ∀ level ∈ book.levels s.opposite, level.2 ≠ []) :
    EmissionSteps (book.moment (some ⟨command, command.quantityLots⟩))
      (book.matchEmissions command)
      ((book.matchIncoming command).2.2.moment
        (some ⟨command, (book.matchIncoming command).1⟩)) := by
  have htrades := matchLevels_steps (m := book.moment) hside hlevels (book.matchVars command)
  have hbegin : book.moment.withMatch command s.opposite (book.levels s.opposite)
      (book.matchVars command) = book.moment (some ⟨command, command.quantityLots⟩) := by
    unfold Moment.withMatch moment matchVars
    simp only [Function.update_eq_self]
  rw [(book.matchIncoming_moment hside).2, ← hbegin]
  unfold matchEmissions
  rw [incomingSide_eq hside]
  exact htrades

/-- Matching stops when the order is used up or no longer crosses. -/
theorem OrderBook.matchIncoming_exit (book : OrderBook) {command : OrderCommandRecordV1}
    {s : Side} (hside : decodeSide command.side = some s) :
    ∀ level ∈ ((book.matchIncoming command).2.2.levels s.opposite).head?,
      (book.matchIncoming command).1 ≤ 0 ∨ s.opposite.Better command.priceTicks level.1 := by
  obtain ⟨hremaining, hmoment⟩ := book.matchIncoming_moment hside
  have hlevels : (book.matchIncoming command).2.2.levels s.opposite =
      (matchLevels command s.opposite (book.levels s.opposite) (book.matchVars command)).left := by
    have h := congrArg (fun m => m.levels s.opposite) hmoment
    simp only [Moment.withMatch_levels, Function.update_self] at h
    exact h
  rw [hremaining, hlevels]
  exact matchLevels_exit _ _

@[simp] theorem OrderBook.restOrder_counters (book : OrderBook) (command : OrderCommandRecordV1)
    (remaining : Int64) : (book.restOrder command remaining).counters = book.counters := by
  unfold restOrder
  split <;> rfl

/-- Settling an order of which something is left rests it and announces that. -/
theorem OrderBook.settleIncoming_of_ne_zero (book : OrderBook) (command : OrderCommandRecordV1)
    {remaining : Int64} (hremaining : remaining ≠ 0) :
    book.settleIncoming command remaining =
      ([(emitRestEvent book.counters command remaining).1],
        { book.restOrder command remaining with
          counters := (emitRestEvent book.counters command remaining).2 }) := by
  unfold settleIncoming emitRestEvent
  rw [if_neg hremaining]
  simp only [restOrder_counters]

/-- Settling an order that no longer crosses is one filling or resting emission. -/
theorem OrderBook.settleIncoming_step {book : OrderBook} {command : OrderCommandRecordV1}
    {s : Side} (hside : decodeSide command.side = some s) {remaining : Int64}
    (hcross : ∀ level ∈ (book.levels s.opposite).head?,
      remaining ≤ 0 ∨ s.opposite.Better command.priceTicks level.1) :
    EmissionStep (book.moment (some ⟨command, remaining⟩))
      (book.settleEmission command remaining)
      (book.settleIncoming command remaining).2.moment := by
  by_cases hzero : remaining = 0
  · subst hzero
    exact EmissionStep.fill rfl
  · have hstep := EmissionStep.rest (m := book.moment (some ⟨command, remaining⟩)) rfl hside
      hzero hcross
    have hmoment := book.restOrder_moment hside remaining
    rw [← hmoment] at hstep
    rw [book.settleIncoming_of_ne_zero command hzero, settleEmission, if_neg hzero]
    simp only [restOrder_counters]
    exact hstep

/-- A valid new order on a well-formed book performs the steps of its emissions. -/
theorem OrderBook.acceptNewOrder_steps {book : OrderBook} {command : OrderCommandRecordV1}
    (hbook : book.moment.WellFormed) (hvalid : NewOrderValid book command) :
    EmissionSteps book.moment (book.acceptEmissions command)
      (book.acceptNewOrder command).2.moment := by
  obtain ⟨s, hside⟩ := hvalid.side
  have haccept := hvalid.accept_step
  have hstart := haccept.wellFormed hbook
  have htrades := (book.acceptIncoming command).2.matchIncoming_steps hside
    fun level hlevel => (hstart.level s.opposite level hlevel).nonempty
  have hsettle := OrderBook.settleIncoming_step hside
    ((book.acceptIncoming command).2.matchIncoming_exit hside)
  exact (EmissionSteps.cons haccept htrades).append hsettle.single

/-- A new order on a well-formed book performs the steps of its emissions. -/
theorem OrderBook.applyNewOrder_steps {book : OrderBook} (hbook : book.moment.WellFormed)
    (command : OrderCommandRecordV1) :
    EmissionSteps book.moment (book.newOrderEmissions command)
      (book.applyNewOrder command).2.moment := by
  unfold newOrderEmissions applyNewOrder
  split
  · exact book.reject_steps command _
  · rename_i hvalid
    exact acceptNewOrder_steps hbook ((book.validateNewOrder_eq_none_iff command).mp
      (not_not.mp hvalid))

/-- Removing an active order of a well-formed book is one cancelling emission. -/
theorem OrderBook.cancelled_step {book : OrderBook} (hbook : book.moment.WellFormed)
    (command : OrderCommandRecordV1) {o : RestingOrder}
    (hactive : book.activeOrders.lookup command.orderId = some o) :
    EmissionStep book.moment (book.cancelEmission command o)
      (book.cancelled command o).moment := by
  obtain ⟨s, level, -, -, hok⟩ := hbook.queued_of_lookup hactive
  have hside : decodeSide o.side = some s := decodeSide_eq_some_iff.mpr hok.side
  have hstep := EmissionStep.cancel (m := book.moment) rfl hactive hside
  have hmoment := book.cancelled_moment command hside
  rw [← hmoment] at hstep
  have hemission : (book.cancelled command o).moment.emission command
      (emitCancelEvent book.moment.counters command o).1 = book.cancelEmission command o := by
    unfold cancelEmission cancelled Moment.emission emission
    simp only [removeCancelledOrder_counters]
    rfl
  rw [hemission] at hstep
  exact hstep

/-- A cancel command on a well-formed book performs the steps of its emissions. -/
theorem OrderBook.applyCancelOrder_steps {book : OrderBook} (hbook : book.moment.WellFormed)
    (command : OrderCommandRecordV1) :
    EmissionSteps book.moment (book.cancelOrderEmissions command)
      (book.applyCancelOrder command).2.moment := by
  unfold cancelOrderEmissions applyCancelOrder
  by_cases hkind : decodeCommandType command.commandType ≠ some .cancelOrder
  · simp only [if_pos hkind]
    exact book.reject_steps command _
  · cases hfind : book.findOrder command.orderId with
    | none =>
      simp only [if_neg hkind]
      exact book.reject_steps command _
    | some o =>
      by_cases hinstrument : o.instrumentId ≠ command.instrumentId
      · simp only [if_neg hkind, if_pos hinstrument]
        exact book.reject_steps command _
      · simp only [if_neg hkind, if_neg hinstrument]
        exact (cancelled_step hbook command hfind).single

/-- A replace command on a well-formed book performs the steps of its emissions. -/
theorem OrderBook.applyReplaceOrder_steps {book : OrderBook} (hbook : book.moment.WellFormed)
    (command : OrderCommandRecordV1) :
    EmissionSteps book.moment (book.replaceOrderEmissions command)
      (book.applyReplaceOrder command).2.moment := by
  unfold replaceOrderEmissions applyReplaceOrder
  by_cases hvalid : book.validateReplaceOrder command ≠ .none
  · simp only [if_pos hvalid]
    exact book.reject_steps command _
  · cases hfind : book.findOrder command.orderId with
    | none =>
      simp only [if_neg hvalid]
      exact .nil _
    | some o =>
      simp only [if_neg hvalid]
      have hcancel := cancelled_step hbook command hfind
      exact .cons hcancel (applyNewOrder_steps (hcancel.wellFormed hbook)
        (replacementNewOrderCommand command))

/-- Every command on a well-formed book performs the steps of its emissions. -/
theorem OrderBook.dispatch_steps {book : OrderBook} (hbook : book.moment.WellFormed)
    (command : OrderCommandRecordV1) :
    EmissionSteps book.moment (book.emissions command) (book.dispatch command).2.moment := by
  unfold emissions dispatch
  cases decodeCommandType command.commandType with
  | none => exact book.reject_steps command _
  | some kind =>
    cases kind with
    | newOrder => exact applyNewOrder_steps hbook command
    | cancelOrder => exact applyCancelOrder_steps hbook command
    | replaceOrder => exact applyReplaceOrder_steps hbook command

/-! ## Replacements -/

/-- The new order of a valid replacement is valid once the old order is gone. -/
theorem ReplaceOrderValid.newOrderValid {book : OrderBook} {command : OrderCommandRecordV1}
    {o : RestingOrder} (hvalid : ReplaceOrderValid book command o)
    (hbook : book.moment.WellFormed) :
    NewOrderValid (book.cancelled command o) (replacementNewOrderCommand command) := by
  obtain ⟨s, level, hlevel, ho, hok⟩ := hbook.queued_of_lookup hvalid.active
  have hbound : book.instrumentId = some o.instrumentId :=
    hbook.bound s o (mem_queued.mpr ⟨level, hlevel, ho⟩)
  have hmoment := book.cancelled_moment command (decodeSide_eq_some_iff.mpr hok.side)
  have hinstrument : (book.cancelled command o).instrumentId = book.instrumentId :=
    congrArg Moment.instrumentId hmoment
  have hactive : (book.cancelled command o).activeOrders = book.activeOrders.erase o.orderId :=
    congrArg Moment.activeOrders hmoment
  refine ⟨rfl, hvalid.side, hvalid.price, hvalid.quantity, ?_, fun instrumentId h => ?_,
    hvalid.timeInForce⟩
  · rw [hactive, Finmap.mem_erase]
    exact fun hmem => hvalid.replacement_new hmem.2
  · rw [hinstrument, hbound] at h
    exact hvalid.instrument.symm.trans (Option.some.inj h)

/-! ## Reachable engines -/

/-- The book of a reachable engine is well formed between two commands. -/
theorem InstrumentEngine.Reachable.wellFormed {engine : InstrumentEngine}
    (hreach : engine.Reachable) : engine.orderBook.moment.WellFormed := by
  obtain ⟨firstEventSequence, hrun⟩ := hreach
  exact hrun.invariant engineMachine (P := fun engine => engine.orderBook.moment.WellFormed)
    (OrderBook.wellFormed_create firstEventSequence)
    fun engine command hengine => (OrderBook.dispatch_steps hengine command).wellFormed hengine

/-- A property of the emissions so far and of the moment reached holds after every
run if it holds at the start and survives every emission from a well-formed moment. -/
theorem InstrumentEngine.applyAll_preserves {P : List Emission → Moment → Prop}
    (hstep : ∀ {history m e m'}, EmissionStep m e m' → m.WellFormed → P history m →
      P (history ++ [e]) m')
    (firstEventSequence : UInt64) (hstart : P [] (OrderBook.create firstEventSequence).moment)
    (commands : List OrderCommandRecordV1) :
    P ((create firstEventSequence).emissionsAll commands)
      ((create firstEventSequence).applyAll commands).2.orderBook.moment := by
  have hrun := emissionMachine.run_induction
    (P := fun history engine => engine.orderBook.moment.WellFormed ∧
      P history engine.orderBook.moment)
    (s := create firstEventSequence) ⟨OrderBook.wellFormed_create firstEventSequence, hstart⟩
    ?_ commands
  · rw [emissionMachine_run]
    exact hrun.2
  · intro history engine command hengine
    exact (OrderBook.dispatch_steps hengine.1 command).preserves
      (P := fun history m => m.WellFormed ∧ P history m)
      (fun hstep' hm => ⟨hstep'.wellFormed hm.1, hstep hstep' hm.1 hm.2⟩) history hengine

/-- Every run is a sequence of emissions from the fresh book. -/
theorem InstrumentEngine.steps_applyAll (firstEventSequence : UInt64)
    (commands : List OrderCommandRecordV1) :
    EmissionSteps (OrderBook.create firstEventSequence).moment
      ((create firstEventSequence).emissionsAll commands)
      ((create firstEventSequence).applyAll commands).2.orderBook.moment :=
  applyAll_preserves (P := fun es m =>
      EmissionSteps (OrderBook.create firstEventSequence).moment es m)
    (fun hstep _ hsteps => hsteps.append hstep.single) firstEventSequence (.nil _) commands

/-- Every emission of a command that follows a run is a step from a well-formed
moment at which the preserved property holds of all emissions before it. -/
theorem InstrumentEngine.emission_step_at {P : List Emission → Moment → Prop}
    (hstep : ∀ {history m e m'}, EmissionStep m e m' → m.WellFormed → P history m →
      P (history ++ [e]) m')
    (firstEventSequence : UInt64) (hstart : P [] (OrderBook.create firstEventSequence).moment)
    (commands : List OrderCommandRecordV1) (command : OrderCommandRecordV1) {i : ℕ} {e : Emission}
    (he : (((create firstEventSequence).applyAll commands).2.orderBook.emissions command)[i]? =
      some e) :
    ∃ before after, before.WellFormed ∧
      P ((create firstEventSequence).emissionsAll commands ++
        (((create firstEventSequence).applyAll commands).2.orderBook.emissions command).take i)
        before ∧
      EmissionStep before e after := by
  have hreach := reachable_applyAll firstEventSequence commands
  have hP := applyAll_preserves hstep firstEventSequence hstart commands
  obtain ⟨before, after, hbefore, hemission⟩ :=
    (OrderBook.dispatch_steps hreach.wellFormed command).step_at
      (P := fun history m => m.WellFormed ∧ P history m)
      (fun hstep' hm => ⟨hstep'.wellFormed hm.1, hstep hstep' hm.1 hm.2⟩) _
      ⟨hreach.wellFormed, hP⟩ he
  exact ⟨before, after, hbefore.1, hbefore.2, hemission⟩

end MatchingEngine
