import Mathlib.Algebra.Order.Group.Int
import MatchingEngine.Core.GreedyMatching
import MatchingEngine.Library.Totals

/-!
# The active quantity of a price

What the active orders of one side and price hold together. Cancellations and trades only
make it smaller. An accepted order adds what is left of it after matching, so whether it
stays within the range of `int64` can be told before the command is applied.
-/

namespace MatchingEngine

/-- What an order adds to the quantity of this side and price. -/
def RestingOrder.quantityAt (s : Side) (priceTicks : Int64) (o : RestingOrder) : ℤ :=
  if o.side = s.code ∧ o.priceTicks = priceTicks then o.offer else 0

/-- The quantity of the active orders of this side and price. -/
def activeQuantity (orders : ActiveOrders) (s : Side) (priceTicks : Int64) : ℤ :=
  orders.total (RestingOrder.quantityAt s priceTicks)

/-- No side and price holds more than the largest `int64`. -/
def QuantitiesFit (orders : ActiveOrders) : Prop :=
  ∀ s priceTicks, activeQuantity orders s priceTicks ≤ Int64.maxValue.toInt

/-- A new order that is accepted and leaves more at its side and price than fits. -/
structure OrderBook.Overfills (book : OrderBook) (command : OrderCommandRecordV1) : Prop where
  /-- The command passes the validation of new orders. -/
  valid : book.validateNewOrder command = .none
  /-- What is left of it does not fit on top of what is there. -/
  exceeds : Int64.maxValue.toInt <
    activeQuantity book.activeOrders (incomingSide command) command.priceTicks +
      book.leftover command

/-- A command that brings in an order that overfills its side and price. A replacement does so
after its old order is gone. -/
def OrderBook.CommandOverfills (book : OrderBook) (command : OrderCommandRecordV1) : Prop :=
  match decodeCommandType command.commandType with
  | some .newOrder => book.Overfills command
  | some .replaceOrder =>
      book.validateReplaceOrder command = .none ∧
        ∃ o, book.findOrder command.orderId = some o ∧
          (book.cancelled command o).Overfills (replacementNewOrderCommand command)
  | _ => False

/-! ## Orders that get smaller -/

/-- The active orders of a well-formed moment have something left. -/
theorem Moment.WellFormed.offer_pos {m : Moment} (hm : m.WellFormed) {orderId : UInt64}
    {o : RestingOrder} (hlookup : m.activeOrders.lookup orderId = some o) : 0 < o.offer := by
  obtain ⟨s, level, -, -, hok⟩ := hm.queued_of_lookup hlookup
  exact RestingOrder.offer_pos hok.remaining

/-- Every order of the first map is an order of the second with at most as much left. -/
def Shrinks (orders' orders : ActiveOrders) : Prop :=
  ∀ orderId o', orders'.lookup orderId = some o' → ∃ o, orders.lookup orderId = some o ∧
    o'.side = o.side ∧ o'.priceTicks = o.priceTicks ∧ o'.offer ≤ o.offer

/-- Orders that get smaller or disappear keep the quantities within range. -/
theorem QuantitiesFit.of_shrinks {orders orders' : ActiveOrders} (hfit : QuantitiesFit orders)
    (hpos : ∀ orderId o, orders.lookup orderId = some o → 0 < o.offer)
    (hshrinks : Shrinks orders' orders) : QuantitiesFit orders' := by
  intro s priceTicks
  refine (Finmap.total_le_total fun orderId => ?_).trans (hfit s priceTicks)
  cases hlookup' : orders'.lookup orderId with
  | none =>
    cases hlookup : orders.lookup orderId with
    | none => exact le_rfl
    | some o =>
      have ho := (hpos orderId o hlookup).le
      change 0 ≤ o.quantityAt s priceTicks
      unfold RestingOrder.quantityAt
      split
      · exact ho
      · exact le_rfl
  | some o' =>
    obtain ⟨o, hlookup, hside, hprice, hle⟩ := hshrinks orderId o' hlookup'
    rw [hlookup]
    change o'.quantityAt s priceTicks ≤ o.quantityAt s priceTicks
    unfold RestingOrder.quantityAt
    rw [hside, hprice]
    split
    · exact hle
    · exact le_rfl

theorem Shrinks.trans {orders orders' orders'' : ActiveOrders} (h : Shrinks orders'' orders')
    (h' : Shrinks orders' orders) : Shrinks orders'' orders := by
  intro orderId o'' hlookup''
  obtain ⟨o', hlookup', hside, hprice, hle⟩ := h orderId o'' hlookup''
  obtain ⟨o, hlookup, hside', hprice', hle'⟩ := h' orderId o' hlookup'
  exact ⟨o, hlookup, hside.trans hside', hprice.trans hprice', hle.trans hle'⟩

theorem shrinks_erase (orders : ActiveOrders) (orderId : UInt64) :
    Shrinks (orders.erase orderId) orders :=
  fun _ o' hlookup => ⟨o', Finmap.lookup_of_lookup_erase hlookup, rfl, rfl, le_rfl⟩

/-- A trade makes the front order smaller or takes it away. -/
theorem shrinks_varsAfterFill {command : OrderCommandRecordV1} {priceTicks : Int64}
    {o : RestingOrder} {vars : MatchVars} (hincoming : 0 < vars.incomingRemaining)
    (ho : 0 < o.remainingQuantityLots) (hlookup : vars.activeOrders.lookup o.orderId = some o) :
    Shrinks (varsAfterFill (fillFront command priceTicks o vars)).activeOrders
      vars.activeOrders := by
  have hinsert : Shrinks (fillFront command priceTicks o vars).vars.activeOrders
      vars.activeOrders := by
    intro orderId o' hlookup'
    rcases Finmap.cases_of_lookup_insert hlookup' with ⟨rfl, rfl⟩ | ⟨-, hlookup'⟩
    · obtain ⟨hpos, -, hresting, -, -⟩ := fillFront_exact command priceTicks vars hincoming ho
      refine ⟨o, hlookup, rfl, rfl, ?_⟩
      change (fillFront command priceTicks o vars).restingOrder.remainingQuantityLots.toInt ≤ _
      rw [hresting]
      exact sub_le_self _ hpos.le
    · exact ⟨o', hlookup', rfl, rfl, le_rfl⟩
  unfold varsAfterFill
  split
  · exact (shrinks_erase _ _).trans hinsert
  · exact hinsert

/-- An emission that rests no order leaves the quantities within range. -/
theorem EmissionStep.quantitiesFit {m m' : Moment} {e : Emission} (hstep : EmissionStep m e m')
    (hwf : m.WellFormed) (hfit : QuantitiesFit m.activeOrders)
    (hrests : ∀ orderId, e.event.Rests orderId → QuantitiesFit e.activeOrders) :
    QuantitiesFit m'.activeOrders := by
  cases hstep with
  | reject | accept | fill => exact hfit
  | @cancel command o s hidle hactive hside =>
    exact hfit.of_shrinks (fun _ _ h => hwf.offer_pos h) (shrinks_erase _ _)
  | @trade command remaining s priceTicks o rest worse hincoming hside hremaining hlevels hcross =>
    have hlookup : (m.vars remaining).activeOrders.lookup o.orderId = some o :=
      hwf.lookup_front hlevels
    exact hfit.of_shrinks (fun _ _ h => hwf.offer_pos h)
      (shrinks_varsAfterFill hremaining (hwf.front hlevels).remaining hlookup)
  | @rest command remaining s hincoming hside hremaining hcross =>
    exact hrests command.orderId (emitRestEvent_rests m.counters command remaining)

/-- Emissions leave the quantities within range if the orders they rest fit. -/
theorem EmissionSteps.quantitiesFit {m m' : Moment} {es : List Emission}
    (hsteps : EmissionSteps m es m') (hwf : m.WellFormed) (hfit : QuantitiesFit m.activeOrders)
    (hrests : ∀ e ∈ es, ∀ orderId, e.event.Rests orderId → QuantitiesFit e.activeOrders) :
    QuantitiesFit m'.activeOrders := by
  induction hsteps with
  | nil => exact hfit
  | cons hstep _ ih =>
    obtain ⟨hfirst, hrest⟩ := List.forall_mem_cons.mp hrests
    exact ih (hstep.wellFormed hwf) (hstep.quantitiesFit hwf hfit hfirst) hrest

/-! ## What a command adds -/

/-- A reduced order keeps its place. -/
theorem RestingOrder.place_of_reduce {o o' : RestingOrder} {quantity : ℤ}
    (h : o.reduce quantity = some o') : o'.place = o.place := by
  unfold reduce at h
  split at h
  · cases h
  · obtain rfl := Option.some.inj h
    rfl

/-- Matching leaves the quantities of the own side as they are. -/
theorem MatchedGreedily.activeQuantity_own {book matched : OrderBook}
    {command : OrderCommandRecordV1} {remaining : Int64} {trades : List ExecutionEventRecordV1}
    (hmatched : MatchedGreedily book command remaining trades matched)
    (hbook : book.moment.WellFormed) (priceTicks : Int64) :
    activeQuantity matched.activeOrders (incomingSide command) priceTicks =
      activeQuantity book.activeOrders (incomingSide command) priceTicks := by
  refine Finmap.total_congr fun orderId => ?_
  rw [hmatched.index]
  cases hlookup : book.activeOrders.lookup orderId with
  | none => rfl
  | some o =>
    rw [Option.bind_some]
    by_cases hside : o.side = (incomingSide command).code
    · obtain ⟨s, level, hlevel, ho, hok⟩ := hbook.queued_of_lookup hlookup
      obtain rfl := Side.code_injective (hok.side.symm.trans hside)
      rw [OrderBook.reduced_own hbook (mem_queued.mpr ⟨level, hlevel, ho⟩)]
    · have hnone : ∀ o' : RestingOrder, o'.side = o.side →
          o'.quantityAt (incomingSide command) priceTicks = 0 :=
        fun o' h => if_neg fun hat => hside (h.symm.trans hat.1)
      change _ = o.quantityAt _ _
      rw [hnone o rfl]
      cases hreduced : book.reduced command o with
      | none => rfl
      | some o' =>
        exact hnone o' (congrArg (fun p => p.side) (RestingOrder.place_of_reduce hreduced))

/-- What is left of an accepted order is added to the quantity of its own side and price. -/
theorem NewOrderValid.settleEmission_fits_iff {book : OrderBook} {command : OrderCommandRecordV1}
    (hbook : book.moment.WellFormed) (hvalid : NewOrderValid book command)
    (hfit : QuantitiesFit book.activeOrders)
    {matched : Int64 × List ExecutionEventRecordV1 × OrderBook}
    (hmatch : (book.acceptIncoming command).2.matchIncoming command = matched) :
    (∀ orderId, (matched.2.2.settleEmission command matched.1).event.Rests orderId →
        QuantitiesFit (matched.2.2.settleEmission command matched.1).activeOrders) ↔
      activeQuantity book.activeOrders (incomingSide command) command.priceTicks +
        book.leftover command ≤ Int64.maxValue.toInt := by
  obtain ⟨s, hside⟩ := hvalid.side
  obtain rfl : incomingSide command = s := incomingSide_eq hside
  have hmatched := hvalid.matchedGreedily hbook
  have hstart := hvalid.accept_step.wellFormed hbook
  have hsteps := (book.acceptIncoming command).2.matchIncoming_steps hside
    fun level hlevel => (hstart.level _ level hlevel).nonempty
  have hkept : QuantitiesFit matched.2.2.activeOrders := by
    rw [← hmatch]
    exact hsteps.quantitiesFit hstart (hvalid.accept_step.quantitiesFit hbook hfit
      fun orderId hrests => absurd hrests
        (not_rests_of_eventType .orderAccepted rfl (by decide) orderId))
      fun e he orderId hrests => absurd hrests (levelEmissions_not_rests he orderId)
  rw [hmatch] at hmatched
  by_cases hzero : matched.1 = 0
  · have hleft : book.leftover command = 0 := by
      rw [← hmatched.remaining, hzero, Int64.toInt_zero]
    rw [hleft, add_zero]
    refine iff_of_true (fun orderId hrests => ?_) (hfit _ _)
    exact absurd hzero ((OrderBook.settleEmission_rests_iff _ _ _ orderId).mp hrests).1
  · have hnew : command.orderId ∉ matched.2.2.activeOrders := by
      rw [← Finmap.lookup_eq_none, hmatched.index, Finmap.lookup_eq_none.mpr hvalid.new]
      rfl
    have horders : (matched.2.2.settleEmission command matched.1).activeOrders =
        matched.2.2.activeOrders.insert command.orderId (restingOrderOf command matched.1) := by
      have hmoment := matched.2.2.restOrder_moment hside matched.1
      unfold OrderBook.settleEmission
      rw [if_neg hzero]
      exact congrArg Moment.activeOrders hmoment
    have hadded : ∀ t priceTicks,
        activeQuantity (matched.2.2.settleEmission command matched.1).activeOrders t priceTicks =
          (restingOrderOf command matched.1).quantityAt t priceTicks +
            activeQuantity matched.2.2.activeOrders t priceTicks := by
      intro t priceTicks
      rw [horders]
      exact Finmap.total_insert_of_notMem hnew
    have hown : (restingOrderOf command matched.1).quantityAt (incomingSide command)
        command.priceTicks = book.leftover command := by
      rw [← hmatched.remaining]
      exact if_pos ⟨decodeSide_eq_some_iff.mp hside, rfl⟩
    constructor
    · intro h
      have hprice := h command.orderId
        ((OrderBook.settleEmission_rests_iff _ _ _ _).mpr ⟨hzero, rfl⟩)
        (incomingSide command) command.priceTicks
      rwa [hadded, hown, hmatched.activeQuantity_own hbook, add_comm] at hprice
    · intro h orderId _ t priceTicks
      rw [hadded]
      by_cases hat : command.side = t.code ∧ command.priceTicks = priceTicks
      · obtain ⟨ht, rfl⟩ := hat
        obtain rfl : incomingSide command = t := incomingSide_eq (decodeSide_eq_some_iff.mpr ht)
        rwa [hown, hmatched.activeQuantity_own hbook, add_comm]
      · have hother : (restingOrderOf command matched.1).quantityAt t priceTicks = 0 := if_neg hat
        rw [hother, zero_add]
        exact hkept t priceTicks

/-- The orders that a new order rests fit exactly when it does not overfill its price. -/
theorem OrderBook.newOrderEmissions_fit_iff {book : OrderBook} (hbook : book.moment.WellFormed)
    (hfit : QuantitiesFit book.activeOrders) (command : OrderCommandRecordV1) :
    (∀ e ∈ book.newOrderEmissions command, ∀ orderId, e.event.Rests orderId →
        QuantitiesFit e.activeOrders) ↔ ¬ book.Overfills command := by
  unfold newOrderEmissions
  by_cases hvalid : book.validateNewOrder command ≠ .none
  · rw [if_pos hvalid]
    exact iff_of_true
      (fun e he orderId hrests => absurd hrests (rejectEmissions_not_rests he orderId))
      fun h => hvalid h.valid
  · rw [if_neg hvalid]
    have hvalid := not_not.mp hvalid
    have hnew := (book.validateNewOrder_eq_none_iff command).mp hvalid
    have hover : ¬ book.Overfills command ↔
        activeQuantity book.activeOrders (incomingSide command) command.priceTicks +
          book.leftover command ≤ Int64.maxValue.toInt :=
      ⟨fun h => not_lt.mp fun hlt => h ⟨hvalid, hlt⟩, fun h hover => not_lt.mpr h hover.exceeds⟩
    rw [hover, ← hnew.settleEmission_fits_iff hbook hfit rfl]
    simp only [acceptEmissions, List.cons_append, List.forall_mem_cons, List.forall_mem_append]
    refine ⟨fun h => h.2.2.1, fun h => ⟨fun orderId hrests => ?_, fun e he orderId hrests => ?_, h,
      List.forall_mem_nil _⟩⟩
    · exact absurd hrests (not_rests_of_eventType .orderAccepted rfl (by decide) orderId)
    · exact absurd hrests (levelEmissions_not_rests he orderId)

/-- The orders that a replacement rests fit exactly when it does not overfill a price. -/
theorem OrderBook.replaceOrderEmissions_fit_iff {book : OrderBook}
    (hbook : book.moment.WellFormed) (hfit : QuantitiesFit book.activeOrders)
    (command : OrderCommandRecordV1) :
    (∀ e ∈ book.replaceOrderEmissions command, ∀ orderId, e.event.Rests orderId →
        QuantitiesFit e.activeOrders) ↔
      ¬ (book.validateReplaceOrder command = .none ∧
        ∃ o, book.findOrder command.orderId = some o ∧
          (book.cancelled command o).Overfills (replacementNewOrderCommand command)) := by
  unfold replaceOrderEmissions
  by_cases hvalid : book.validateReplaceOrder command ≠ .none
  · rw [if_pos hvalid]
    exact iff_of_true
      (fun e he orderId hrests => absurd hrests (rejectEmissions_not_rests he orderId))
      fun h => hvalid h.1
  · rw [if_neg hvalid]
    have hvalid := not_not.mp hvalid
    obtain ⟨o, ho⟩ := replaceOrderValid_of_validate hvalid
    have hfind : book.findOrder command.orderId = some o := ho.active
    have hstep := cancelled_step hbook command hfind
    have hcancel : ∀ orderId, (book.cancelEmission command o).event.Rests orderId →
        QuantitiesFit (book.cancelEmission command o).activeOrders :=
      fun orderId hrests => absurd hrests (book.cancelEmission_not_rests command o orderId)
    simp only [hfind, List.forall_mem_cons]
    rw [newOrderEmissions_fit_iff (hstep.wellFormed hbook)
      (hstep.quantitiesFit hbook hfit hcancel)]
    constructor
    · rintro ⟨-, hover⟩ ⟨-, o', heq, hover'⟩
      obtain rfl := Option.some.inj heq
      exact hover hover'
    · exact fun h => ⟨hcancel, fun hover => h ⟨hvalid, o, rfl, hover⟩⟩

/-- The orders that a command rests fit exactly when it does not overfill a price. -/
theorem OrderBook.emissions_fit_iff {book : OrderBook} (hbook : book.moment.WellFormed)
    (hfit : QuantitiesFit book.activeOrders) (command : OrderCommandRecordV1) :
    (∀ e ∈ book.emissions command, ∀ orderId, e.event.Rests orderId →
        QuantitiesFit e.activeOrders) ↔ ¬ book.CommandOverfills command := by
  unfold emissions CommandOverfills
  cases decodeCommandType command.commandType with
  | none =>
    exact iff_of_true
      (fun e he orderId hrests => absurd hrests (rejectEmissions_not_rests he orderId)) not_false
  | some kind =>
    cases kind with
    | newOrder => exact newOrderEmissions_fit_iff hbook hfit command
    | cancelOrder =>
      exact iff_of_true (fun e he orderId hrests =>
        absurd hrests (cancelOrderEmissions_not_rests he orderId)) not_false
    | replaceOrder => exact replaceOrderEmissions_fit_iff hbook hfit command

end MatchingEngine
