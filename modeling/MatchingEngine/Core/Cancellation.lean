import MatchingEngine.Core.CommandSteps
import MatchingEngine.Library.Queues

/-!
# What a cancellation changes

The order to be cancelled is looked up in the index, and its queue is found through the
side and the price of that copy. On a well-formed book the search always hits the queued
order, so the cancellation takes exactly this order out of the two priority lists.
-/

namespace MatchingEngine

/-- Every order but the one with this id. -/
def without (orderId : UInt64) (o : RestingOrder) : Option RestingOrder :=
  if o.orderId = orderId then none else some o

@[simp] theorem without_self (o : RestingOrder) : without o.orderId o = none := if_pos rfl

theorem without_of_ne {orderId : UInt64} {o : RestingOrder} (h : o.orderId ≠ orderId) :
    without orderId o = some o := if_neg h

/-- A list without the id stays as it is. -/
theorem filterMap_without {orderId : UInt64} {queue : List RestingOrder}
    (h : ∀ a ∈ queue, a.orderId ≠ orderId) : queue.filterMap (without orderId) = queue := by
  rw [List.filterMap_congr fun a ha => without_of_ne (h a ha), List.filterMap_some]

/-- Levels without the id stay as they are. -/
theorem reviseQueues_without {orderId : UInt64} {levels : List PriceLevel}
    (hnonempty : ∀ level ∈ levels, level.2 ≠ [])
    (h : ∀ a ∈ queued levels, a.orderId ≠ orderId) :
    reviseQueues (without orderId) levels = levels :=
  reviseQueues.eq_self hnonempty fun level hlevel a ha =>
    without_of_ne (h a (mem_queued.mpr ⟨level, hlevel, ha⟩))

/-- The best level is revised by itself and dropped when nothing of it is left. -/
theorem reviseQueues_cons (f : RestingOrder → Option RestingOrder) (priceTicks : Int64)
    (queue : List RestingOrder) (worse : List PriceLevel) :
    reviseQueues f ((priceTicks, queue) :: worse) =
      consLevel priceTicks (queue.filterMap f) (reviseQueues f worse) := by
  by_cases h : queue.filterMap f = []
  · rw [reviseQueues.cons_of_empty h, consLevel, if_pos h]
  · rw [reviseQueues.cons_of_ne h, consLevel, if_neg h]

namespace Moment.WellFormed

variable {m : Moment}

/-- The prices of a side are distinct. -/
theorem keys_nodup (hm : m.WellFormed) (s : Side) : ((m.levels s).map Prod.fst).Nodup := by
  refine List.pairwise_map.mpr ((hm.sorted s).imp fun {a b} hbetter heq => ?_)
  rw [heq] at hbetter
  exact irrefl _ hbetter

/-- No other queued order has the id of a queued order. -/
theorem others_ne (hm : m.WellFormed) {s : Side} {o : RestingOrder}
    {before after : List PriceLevel} {priceTicks : Int64} {ahead behind : List RestingOrder}
    (hlevels : m.levels s = before ++ (priceTicks, ahead ++ o :: behind) :: after) :
    ∀ a ∈ queued (before ++ consLevel priceTicks (ahead ++ behind) after) ++
      queued (m.levels s.opposite), a.orderId ≠ o.orderId := by
  have hindexed := hm.indexed s
  rw [hlevels] at hindexed
  have hperm := queued_append_consLevel_perm before after priceTicks ahead behind o
  exact fun a ha => (hindexed.perm (hperm.append_right _)).key_ne_of_mem ha

/-- Taking the id of a queued order out of both sides takes the order out of its queue and
leaves the other side as it is. -/
theorem reviseQueues_without (hm : m.WellFormed) {s : Side} {o : RestingOrder}
    {before after : List PriceLevel} {priceTicks : Int64} {ahead behind : List RestingOrder}
    (hlevels : m.levels s = before ++ (priceTicks, ahead ++ o :: behind) :: after) :
    reviseQueues (without o.orderId) (m.levels s) =
        before ++ consLevel priceTicks (ahead ++ behind) after ∧
      reviseQueues (without o.orderId) (m.levels s.opposite) = m.levels s.opposite := by
  have hothers := hm.others_ne hlevels
  have hnonempty : ∀ t, ∀ level ∈ m.levels t, level.2 ≠ [] :=
    fun t level hlevel => (hm.level t level hlevel).nonempty
  have hown := hnonempty s
  rw [hlevels] at hown
  constructor
  · simp only [queued_append, queued_consLevel, List.mem_append] at hothers
    have hqueue : (ahead ++ o :: behind).filterMap (without o.orderId) = ahead ++ behind := by
      rw [List.filterMap_append, List.filterMap_cons_none (without_self o),
        filterMap_without fun a ha => hothers a (by simp [ha]),
        filterMap_without fun a ha => hothers a (by simp [ha])]
    rw [hlevels, reviseQueues.append, reviseQueues_cons, hqueue,
      MatchingEngine.reviseQueues_without (fun level hlevel => hown level (by simp [hlevel]))
        fun a ha => hothers a (by simp [ha]),
      MatchingEngine.reviseQueues_without (fun level hlevel => hown level (by simp [hlevel]))
        fun a ha => hothers a (by simp [ha])]
  · exact MatchingEngine.reviseQueues_without (hnonempty _)
      fun a ha => hothers a (List.mem_append_right _ ha)

/-- Cancelling an active order takes its id out of the queues of both sides. -/
theorem afterCancel_levels (hm : m.WellFormed) (command : OrderCommandRecordV1)
    {orderId : UInt64} {o : RestingOrder} {s : Side}
    (hactive : m.activeOrders.lookup orderId = some o) (hside : decodeSide o.side = some s)
    (t : Side) :
    (m.afterCancel command s o).levels t = reviseQueues (without o.orderId) (m.levels t) := by
  obtain ⟨before, ahead, behind, after, hsplit, hbefore, hafter, hahead⟩ :=
    hm.locate hactive hside
  obtain ⟨hown, hother⟩ := hm.reviseQueues_without hsplit
  rw [Moment.afterCancel_levels]
  rcases s.eq_or_eq_opposite t with rfl | rfl
  · rw [Function.update_self, hown, hsplit, erasedEntries_eq hbefore hafter hahead]
  · rw [Function.update_of_ne s.opposite_ne, hother]

/-- Without its id an active order is gone from the priority list of its side, and the other
side is as before. -/
theorem exists_priority_split (hm : m.WellFormed) {orderId : UInt64} {o : RestingOrder}
    (hactive : m.activeOrders.lookup orderId = some o) :
    ∃ s ahead behind, queued (m.levels s) = ahead ++ o :: behind ∧
      queued (reviseQueues (without o.orderId) (m.levels s)) = ahead ++ behind ∧
      reviseQueues (without o.orderId) (m.levels s.opposite) = m.levels s.opposite := by
  obtain ⟨s, level, -, -, hok⟩ := hm.queued_of_lookup hactive
  obtain ⟨before, ahead, behind, after, hsplit, -⟩ :=
    hm.locate hactive (decodeSide_eq_some_iff.mpr hok.side)
  obtain ⟨hown, hother⟩ := hm.reviseQueues_without hsplit
  refine ⟨s, queued before ++ ahead, behind ++ queued after, ?_, ?_, hother⟩
  · rw [hsplit]
    simp only [queued_append, queued_cons, List.append_assoc, List.cons_append]
  · rw [hown]
    simp only [queued_append, queued_consLevel, List.append_assoc]

/-- Without the id of an active order a queue is empty exactly when the order was alone. -/
theorem filterMap_without_eq_nil_iff (hm : m.WellFormed) {orderId : UInt64} {o : RestingOrder}
    (hactive : m.activeOrders.lookup orderId = some o) {s : Side} {level : PriceLevel}
    (hlevel : level ∈ m.levels s) :
    level.2.filterMap (without o.orderId) = [] ↔ level.2 = [o] := by
  have hnodup := (hm.indexed s).nodup
  have hmem : ∀ a ∈ level.2, a ∈ queued (m.levels s) ++ queued (m.levels s.opposite) :=
    fun a ha => List.mem_append_left _ (mem_queued.mpr ⟨level, hlevel, ha⟩)
  have hid : orderId = o.orderId := ((hm.indexed s).key_of_lookup hactive).symm
  have hqueued : o ∈ queued (m.levels s) ++ queued (m.levels s.opposite) :=
    (hm.indexed s).mem_of_lookup hactive
  constructor
  · intro hempty
    have hall : ∀ a ∈ level.2, a = o := by
      intro a ha
      have hnone := List.filterMap_eq_nil_iff.mp hempty a ha
      by_contra hne
      have hother : a.orderId ≠ o.orderId :=
        fun heq => hne ((hm.indexed s).eq_of_key_eq (hmem a ha) hqueued heq)
      rw [without_of_ne hother] at hnone
      cases hnone
    have hlevelNodup : level.2.Nodup := by
      have hqueue : level.2.Sublist (queued (m.levels s)) := by
        obtain ⟨before, after, hsplit⟩ := List.append_of_mem hlevel
        rw [hsplit, queued_append, queued_cons]
        exact (List.sublist_append_left _ _).trans (List.sublist_append_right _ _)
      have hsub := hqueue.trans (List.sublist_append_left _ (queued (m.levels s.opposite)))
      exact (hnodup.of_map).sublist hsub
    have hne := (hm.level s level hlevel).nonempty
    obtain ⟨a, rest, hqueue⟩ := List.exists_cons_of_ne_nil hne
    rw [hqueue] at hall hlevelNodup ⊢
    obtain rfl := hall a List.mem_cons_self
    have hrest : rest = [] := by
      refine List.eq_nil_iff_forall_not_mem.mpr fun b hb => ?_
      obtain rfl := hall b (List.mem_cons_of_mem _ hb)
      exact (List.nodup_cons.mp hlevelNodup).1 hb
    rw [hrest]
  · intro hqueue
    rw [hqueue, List.filterMap_cons_none (without_self o), List.filterMap_nil]

end Moment.WellFormed

/-- A cancel command for an active order of its instrument cancels it. -/
theorem OrderBook.applyCancelOrder_eq (book : OrderBook) {command : OrderCommandRecordV1}
    {o : RestingOrder} (hkind : decodeCommandType command.commandType = some .cancelOrder)
    (hactive : book.activeOrders.lookup command.orderId = some o)
    (hinstrument : o.instrumentId = command.instrumentId) :
    book.applyCancelOrder command =
      ([(emitCancelEvent book.counters command o).1], book.cancelled command o) := by
  have hfind : book.findOrder command.orderId = some o := hactive
  unfold applyCancelOrder cancelled
  simp only [hkind, hfind, hinstrument, ne_eq, not_true, if_false, removeCancelledOrder_counters]

/-- A cancel command for an active order of its instrument takes exactly this order out of
the book. The queues of both sides are the old ones without it, a price disappears if and
only if the order was the only one at it, the index forgets the id and nothing else, and
the one event of the command describes the order and not the command. -/
theorem cancel_removes_one_order (firstEventSequence : UInt64)
    (earlier : List OrderCommandRecordV1) (command : OrderCommandRecordV1) (o : RestingOrder)
    (hkind : decodeCommandType command.commandType = some .cancelOrder)
    (hactive : ((InstrumentEngine.create firstEventSequence).applyAll
      earlier).2.orderBook.activeOrders.lookup command.orderId = some o)
    (hinstrument : o.instrumentId = command.instrumentId) :
    let book := ((InstrumentEngine.create firstEventSequence).applyAll earlier).2.orderBook
    let cancelled := book.applyCancelOrder command
    (∀ s, cancelled.2.levels s = reviseQueues (without command.orderId) (book.levels s)) ∧
      (∃ s ahead behind, queued (book.levels s) = ahead ++ o :: behind ∧
        queued (cancelled.2.levels s) = ahead ++ behind ∧
        cancelled.2.levels s.opposite = book.levels s.opposite) ∧
      (∀ s, ∀ level ∈ book.levels s,
        level.1 ∉ (cancelled.2.levels s).map Prod.fst ↔ level.2 = [o]) ∧
      cancelled.2.activeOrders = book.activeOrders.erase command.orderId ∧
      cancelled.2.instrumentId = book.instrumentId ∧
      cancelled.2.counters.nextTradeId = book.counters.nextTradeId ∧
      cancelled.1 =
        [{ eventSequence := book.counters.nextEventSequence
           commandSequence := command.commandSequence
           sourceIngressEpoch := command.sourceIngressEpoch
           sourceIngressSequence := command.sourceIngressSequence
           orderId := o.orderId
           priceTicks := o.priceTicks
           quantityLots := 0
           remainingQuantityLots := o.remainingQuantityLots
           instrumentId := o.instrumentId
           eventType := ExecutionEventType.orderCancelled.code
           side := o.side }] := by
  intro book cancelled
  have hwf := (InstrumentEngine.reachable_applyAll firstEventSequence earlier).wellFormed
  change book.moment.WellFormed at hwf
  have hid : o.orderId = command.orderId := (hwf.indexed .buy).key_of_lookup hactive
  have hcancelled : cancelled = _ := book.applyCancelOrder_eq hkind hactive hinstrument
  obtain ⟨s, level, hlevel, ho, hok⟩ := hwf.queued_of_lookup hactive
  have hside : decodeSide o.side = some s := decodeSide_eq_some_iff.mpr hok.side
  have hmoment : cancelled.2.moment = book.moment.afterCancel command s o := by
    rw [hcancelled]
    exact book.cancelled_moment command hside
  have hlevels : ∀ t, cancelled.2.levels t =
      reviseQueues (without command.orderId) (book.levels t) := by
    intro t
    rw [← hid]
    exact (congrArg (fun m => m.levels t) hmoment).trans
      (hwf.afterCancel_levels command hactive hside t)
  refine ⟨hlevels, ?_, fun t level hlevel => ?_, ?_, congrArg Moment.instrumentId hmoment, ?_, ?_⟩
  · obtain ⟨t, ahead, behind, hbefore, hafter, hother⟩ := hwf.exists_priority_split hactive
    refine ⟨t, ahead, behind, hbefore, ?_, ?_⟩
    · rw [hlevels, ← hid]
      exact hafter
    · rw [hlevels, ← hid]
      exact hother
  · rw [hlevels, ← hid]
    exact (reviseQueues.notMem_keys_iff (hwf.keys_nodup t) hlevel).trans
      (hwf.filterMap_without_eq_nil_iff hactive hlevel)
  · rw [← hid]
    exact congrArg Moment.activeOrders hmoment
  · exact congrArg (fun m => m.counters.nextTradeId) hmoment
  · rw [hcancelled, hid]
    rfl

/-- Of three buy orders at a price, the first of them partly traded, the second is cancelled. -/
theorem cancel_removes_one_order_resting :
    let earlier : List OrderCommandRecordV1 :=
      [{ orderId := 1, instrumentId := 7, priceTicks := 10, quantityLots := 4, commandType := 1,
         side := 1, timeInForce := 1 },
       { orderId := 2, instrumentId := 7, priceTicks := 10, quantityLots := 3, commandType := 1,
         side := 1, timeInForce := 1 },
       { orderId := 3, instrumentId := 7, priceTicks := 10, quantityLots := 5, commandType := 1,
         side := 1, timeInForce := 1 },
       { orderId := 4, instrumentId := 7, priceTicks := 10, quantityLots := 1, commandType := 1,
         side := 2, timeInForce := 1 }]
    let cancelled := ((InstrumentEngine.create 1).applyAll earlier).2.orderBook.applyCancelOrder
      { orderId := 2, instrumentId := 7, commandType := 2 }
    cancelled.2.levels .buy =
        [(10, [{ orderId := 1, instrumentId := 7, side := 1, priceTicks := 10
                 remainingQuantityLots := 3 },
               { orderId := 3, instrumentId := 7, side := 1, priceTicks := 10
                 remainingQuantityLots := 5 }])] ∧
      cancelled.1 =
        [{ eventSequence := 10, orderId := 2, priceTicks := 10, remainingQuantityLots := 3,
           instrumentId := 7, eventType := 7, side := 1 }] := by
  intro earlier cancelled
  obtain ⟨hlevels, -, -, -, -, -, hevents⟩ := cancel_removes_one_order 1 earlier
    { orderId := 2, instrumentId := 7, commandType := 2 }
    { orderId := 2, instrumentId := 7, side := 1, priceTicks := 10, remainingQuantityLots := 3 }
    (by decide) (by decide) (by decide)
  exact ⟨(hlevels .buy).trans (by decide), hevents.trans (by decide)⟩

end MatchingEngine
