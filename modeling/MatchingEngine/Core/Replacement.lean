import MatchingEngine.Core.Cancellation

/-!
# Replacing is cancelling and placing

A replace command is validated once, as a whole, before anything changes; the new order it
derives is validated again after the old order is gone. The first validation covers every
reason of the second one, so a replacement that has begun is completed.
-/

namespace MatchingEngine

/-- The replace command read as the cancellation of its old order. -/
def cancelOrderCommand (command : OrderCommandRecordV1) : OrderCommandRecordV1 :=
  { command with commandType := CommandType.cancelOrder.code }

/-- Read as a cancellation, a valid replacement cancels the old order. -/
theorem ReplaceOrderValid.applyCancelOrder_eq {book : OrderBook} {command : OrderCommandRecordV1}
    {o : RestingOrder} (hvalid : ReplaceOrderValid book command o) :
    book.applyCancelOrder (cancelOrderCommand command) =
      ([(emitCancelEvent book.counters command o).1], book.cancelled command o) :=
  @OrderBook.applyCancelOrder_eq book (cancelOrderCommand command) o rfl hvalid.active
    hvalid.instrument

/-- A valid replacement cancels the old order and then places the new one. -/
theorem ReplaceOrderValid.applyReplaceOrder_eq {book : OrderBook} {command : OrderCommandRecordV1}
    {o : RestingOrder} (hvalid : ReplaceOrderValid book command o)
    (hnone : book.validateReplaceOrder command = .none) :
    book.applyReplaceOrder command =
      ((emitCancelEvent book.counters command o).1 ::
          ((book.cancelled command o).applyNewOrder (replacementNewOrderCommand command)).1,
        ((book.cancelled command o).applyNewOrder (replacementNewOrderCommand command)).2) := by
  have hfind : book.findOrder command.orderId = some o := hvalid.active
  unfold OrderBook.applyReplaceOrder
  simp only [hnone, ne_eq, not_true, if_false, hfind]
  unfold OrderBook.cancelled
  simp only [OrderBook.removeCancelledOrder_counters]

/-- A valid order is announced as accepted before anything else happens to it. -/
theorem NewOrderValid.exists_accepted {book : OrderBook} {command : OrderCommandRecordV1}
    (hvalid : NewOrderValid book command) :
    ∃ rest, (book.applyNewOrder command).1 =
      (emitOrderEvent book.counters command .orderAccepted command.quantityLots
        command.quantityLots).1 :: rest := by
  have hnone := (book.validateNewOrder_eq_none_iff command).mpr hvalid
  rw [OrderBook.applyNewOrder, if_neg (not_not.mpr hnone), OrderBook.acceptNewOrder,
    (hvalid.acceptIncoming_eq none).1]
  exact ⟨_, List.cons_append⟩

/-- A replace command is refused with one event that changes nothing but the event counter,
or it does exactly what its cancellation and then its new order do; and then the old order
was active and the new order is accepted. -/
theorem replace_is_cancel_then_new (firstEventSequence : UInt64)
    (earlier : List OrderCommandRecordV1) (command : OrderCommandRecordV1) :
    let book := ((InstrumentEngine.create firstEventSequence).applyAll earlier).2.orderBook
    let replaced := book.applyReplaceOrder command
    let cancelled := book.applyCancelOrder (cancelOrderCommand command)
    let placed := cancelled.2.applyNewOrder (replacementNewOrderCommand command)
    (∃ event, replaced.1 = [event] ∧
        event.eventType = ExecutionEventType.orderRejected.code ∧
        replaced.2 = { book with
          counters := { book.counters with
            nextEventSequence := book.counters.nextEventSequence + 1 } }) ∨
      (replaced = (cancelled.1 ++ placed.1, placed.2) ∧
        command.orderId ∈ book.activeOrders ∧
        (∃ event, cancelled.1 = [event] ∧
          event.eventType = ExecutionEventType.orderCancelled.code ∧
          event.orderId = command.orderId) ∧
        ∃ event rest, placed.1 = event :: rest ∧
          event.eventType = ExecutionEventType.orderAccepted.code ∧
          event.orderId = command.replacementOrderId) := by
  intro book replaced cancelled placed
  have hwf := (InstrumentEngine.reachable_applyAll firstEventSequence earlier).wellFormed
  by_cases hnone : book.validateReplaceOrder command = .none
  · obtain ⟨o, hvalid⟩ := OrderBook.replaceOrderValid_of_validate hnone
    have hcancelled : cancelled = _ := hvalid.applyCancelOrder_eq
    obtain ⟨rest, haccepted⟩ := (hvalid.newOrderValid hwf).exists_accepted
    have hplaced : placed = (book.cancelled command o).applyNewOrder
        (replacementNewOrderCommand command) := by
      change cancelled.2.applyNewOrder _ = _
      rw [hcancelled]
    refine Or.inr ⟨?_, Finmap.mem_iff.mpr ⟨o, hvalid.active⟩, ?_, ?_⟩
    · rw [hplaced, hcancelled]
      exact hvalid.applyReplaceOrder_eq hnone
    · rw [hcancelled]
      exact ⟨_, rfl, rfl, rfl⟩
    · rw [hplaced, haccepted]
      exact ⟨_, rest, rfl, rfl, rfl⟩
  · refine Or.inl ⟨(emitRejectionEvent book.counters command
      (book.validateReplaceOrder command)).1, ?_, rfl, ?_⟩
    · change (book.applyReplaceOrder command).1 = _
      rw [OrderBook.applyReplaceOrder, if_pos hnone]
      rfl
    · change (book.applyReplaceOrder command).2 = _
      rw [OrderBook.applyReplaceOrder, if_pos hnone]
      rfl

end MatchingEngine
