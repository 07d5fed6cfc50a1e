import MatchingEngine.Projections.Aggregate

/-!
# The order in which the hash map is visited

`rebuild_book` adds up the projected orders and notes the instrument of each order it
visits, so the instrument of the last one stays. The levels do not depend on the order of
the visits, and the instrument does not as long as the projected orders agree on it. The
projection does not ask for that: it takes every instrument that an event names.
-/

namespace MatchingEngine

open MarketDataProjection

/-- The entries in the order of their ids, but this id last. -/
def IterationOrder.last (orderId : UInt64) : IterationOrder where
  visit orders := (byId.visit orders).filter (fun entry => entry.1 ≠ orderId) ++
    (byId.visit orders).filter fun entry => entry.1 = orderId
  nodup orders := by
    have hnodup := byId.nodup orders
    rw [List.map_append]
    refine List.nodup_append.mpr ⟨hnodup.sublist (List.filter_sublist.map _),
      hnodup.sublist (List.filter_sublist.map _), fun k hk k' hk' heq => ?_⟩
    obtain ⟨entry, hentry, rfl⟩ := List.mem_map.mp hk
    obtain ⟨entry', hentry', rfl⟩ := List.mem_map.mp hk'
    have hother := of_decide_eq_true (List.mem_filter.mp hentry).2
    exact hother (heq.trans (of_decide_eq_true (List.mem_filter.mp hentry').2))
  mem_iff orders k o := by
    rw [← byId.mem_iff, List.mem_append, List.mem_filter, List.mem_filter]
    by_cases hk : k = orderId
    · simp [hk]
    · simp [hk]

namespace MarketDataProjection

variable {p q : MarketDataProjection} {event : ExecutionEventRecordV1}

/-- The projected orders are all of one instrument. -/
def SameInstrument (p : MarketDataProjection) : Prop :=
  ∀ k o k' o', p.activeOrders.lookup k = some o → p.activeOrders.lookup k' = some o' →
    o.instrumentId = o'.instrumentId

/-- The rebuilt book depends on the projected orders only. -/
theorem rebuildBook_congr (horders : p.activeOrders = q.activeOrders) (order : IterationOrder) :
    (p.rebuildBook order).book = (q.rebuildBook order).book := by
  unfold rebuildBook
  rw [horders]

/-- The levels of a rebuilt book do not depend on the order of the visits. -/
theorem rebuildBook_levels_eq (p : MarketDataProjection) (order order' : IterationOrder)
    (s : Side) : (p.rebuildBook order).book.levels s = (p.rebuildBook order').book.levels s := by
  have hsums : (p.sums order).levels s = (p.sums order').levels s := by
    refine OrderedMap.ext_find? fun priceTicks => ?_
    have hvalue := p.getD_find?_sums order s priceTicks
    have hsome := p.isSome_find?_sums order s priceTicks
    rw [← p.getD_find?_sums order'] at hvalue
    rw [← p.isSome_find?_sums order'] at hsome
    cases hfind : ((p.sums order).levels s).find? priceTicks with
    | none =>
      rw [hfind] at hsome
      exact (Option.not_isSome_iff_eq_none.mp fun h => Bool.false_ne_true (hsome.mpr h)).symm
    | some quantity =>
      rw [hfind] at hsome hvalue
      obtain ⟨quantity', hfind'⟩ := Option.isSome_iff_exists.mp (hsome.mp rfl)
      rw [hfind'] at hvalue ⊢
      exact congrArg some hvalue
  rw [rebuildBook_levels, rebuildBook_levels, hsums]

/-- The instrument of a rebuilt book is that of the order visited last. -/
theorem rebuildBook_last {orderId : UInt64} {o : OrderState}
    (hlookup : p.activeOrders.lookup orderId = some o) :
    (p.rebuildBook (.last orderId)).book.instrumentId = o.instrumentId := by
  have hlast : ∀ entry ∈ (IterationOrder.byId.visit p.activeOrders).filter
      (fun entry => entry.1 = orderId), entry.2.instrumentId = o.instrumentId := by
    rintro ⟨k, o'⟩ hentry
    obtain ⟨hmem, hk⟩ := List.mem_filter.mp hentry
    obtain rfl : k = orderId := of_decide_eq_true hk
    rw [IterationOrder.mem_iff, hlookup] at hmem
    rw [Option.some.inj hmem]
  have hsome : (IterationOrder.byId.visit p.activeOrders).filter
      (fun entry => entry.1 = orderId) ≠ [] :=
    List.ne_nil_of_mem (List.mem_filter.mpr
      ⟨(IterationOrder.mem_iff _ _ _ _).mpr hlookup, decide_eq_true rfl⟩)
  change (((IterationOrder.last orderId).visit p.activeOrders).foldl
    BookSums.add _).instrumentId = _
  unfold IterationOrder.last
  dsimp only
  rw [List.foldl_append]
  exact BookSums.foldl_add_instrumentId _ hlast (.inl hsome)

/-- The rebuilt book is the same for every order of the visits exactly when the projected
orders are of one instrument. -/
theorem rebuildBook_independent_iff :
    (∀ order order', (p.rebuildBook order).book = (p.rebuildBook order').book) ↔
      p.SameInstrument := by
  constructor
  · intro hsame k o k' o' hlookup hlookup'
    rw [← rebuildBook_last hlookup, ← rebuildBook_last hlookup', hsame]
  · intro hsame order order'
    have hinstrument : (p.rebuildBook order).book.instrumentId =
        (p.rebuildBook order').book.instrumentId := by
      by_cases hempty : ∃ orderId, orderId ∈ p.activeOrders
      · obtain ⟨orderId, hmem⟩ := hempty
        obtain ⟨o, hlookup⟩ := Finmap.mem_iff.mp hmem
        have hall : ∀ k o', p.activeOrders.lookup k = some o' → o'.instrumentId = o.instrumentId :=
          fun k o' hlookup' => hsame k o' orderId o hlookup' hlookup
        rw [p.rebuildBook_instrumentId order hall ⟨orderId, hmem⟩,
          p.rebuildBook_instrumentId order' hall ⟨orderId, hmem⟩]
      · have hnone : p.activeOrders = ∅ := Finmap.ext_lookup fun k => by
          rw [Finmap.lookup_empty, Finmap.lookup_eq_none]
          exact fun hmem => hempty ⟨k, hmem⟩
        unfold rebuildBook
        rw [hnone, IterationOrder.visit_empty, IterationOrder.visit_empty]
    have hbids := p.rebuildBook_levels_eq order order' .buy
    have hasks := p.rebuildBook_levels_eq order order' .sell
    cases hbook : (p.rebuildBook order).book
    cases hbook' : (p.rebuildBook order').book
    rw [hbook, hbook'] at hinstrument hbids hasks
    rw [PublicBookView.mk.injEq]
    exact ⟨hinstrument, hbids, hasks⟩

/-! ## Applying events -/

/-- The event puts a resting order into the projection. -/
def Rests (p : MarketDataProjection) (event : ExecutionEventRecordV1) : Prop :=
  event.eventSequence = p.lastAppliedEventSequence + 1 ∧
    (decodeExecutionEventType event.eventType = some .orderRested ∨
      decodeExecutionEventType event.eventType = some .orderPartiallyFilled) ∧
    (isBuy event.side ∨ isSell event.side) ∧ event.orderId ≠ 0 ∧ 0 < event.priceTicks ∧
    0 < event.remainingQuantityLots

/-- An order that the event puts into the projection is of the instrument of the other
projected orders. -/
def KeepsInstrument (p : MarketDataProjection) (event : ExecutionEventRecordV1) : Prop :=
  p.Rests event → ∀ orderId o, p.activeOrders.lookup orderId = some o → orderId ≠ event.orderId →
    o.instrumentId = event.instrumentId

/-- The projected order of a resting event. -/
def restedOrder (event : ExecutionEventRecordV1) : OrderState where
  instrumentId := event.instrumentId
  side := event.side
  priceTicks := event.priceTicks
  remainingQuantityLots := event.remainingQuantityLots

/-- A resting event puts its order into the projection, and the book is rebuilt. -/
theorem apply_of_rests (hrests : p.Rests event) (order : IterationOrder) :
    (p.apply order event).2 =
      { { p with
          activeOrders := p.activeOrders.insert event.orderId (restedOrder event) }.rebuildBook
        order with lastAppliedEventSequence := event.eventSequence } := by
  obtain ⟨hnext, htype, hside, hid, hprice, hremaining⟩ := hrests
  have hswitch : p.applyByType order event = p.applyRested order event := by
    unfold applyByType
    rcases htype with htype | htype
    · rw [htype]
    · rw [htype]
  have hvisible : ¬ (event.remainingQuantityLots ≤ 0 ∨
      (¬ isBuy event.side ∧ ¬ isSell event.side)) :=
    not_or.mpr ⟨not_le.mpr hremaining, fun h => hside.elim h.1 h.2⟩
  have hvalid : ¬ (event.orderId = 0 ∨ event.priceTicks ≤ 0 ∨ event.remainingQuantityLots ≤ 0) :=
    not_or.mpr ⟨hid, not_or.mpr ⟨not_le.mpr hprice, not_le.mpr hremaining⟩⟩
  have hrested : p.applyRested order event = (applied,
      { p with activeOrders := p.activeOrders.insert event.orderId (restedOrder event) }.rebuildBook
        order) := by
    unfold applyRested upsertOrder
    rw [if_neg hvisible]
    exact if_neg hvalid
  have haccepted : (p.applyByType order event).1.status ≠ .rejected := by
    rw [hswitch, hrested]
    exact fun h => by cases h
  obtain ⟨hresult, hprojection⟩ := apply_of_next order hnext
  rw [hprojection (hresult ▸ haccepted), hswitch, hrested]

/-- Two projections agree on everything but the book and the trades. -/
def SameOrders (p q : MarketDataProjection) : Prop :=
  p.activeOrders = q.activeOrders ∧ p.lastAppliedEventSequence = q.lastAppliedEventSequence

/-- The `switch` answers and changes the orders without a look at the book. -/
theorem SameOrders.applyByType (h : p.SameOrders q) (order order' : IterationOrder)
    (event : ExecutionEventRecordV1) :
    (p.applyByType order event).1 = (q.applyByType order' event).1 ∧
      (p.applyByType order event).2.SameOrders (q.applyByType order' event).2 := by
  obtain ⟨book, trades, last, orders⟩ := p
  obtain ⟨book', trades', last', orders'⟩ := q
  obtain ⟨rfl, rfl⟩ : orders = orders' ∧ last = last' := h
  unfold MarketDataProjection.applyByType
  cases decodeExecutionEventType event.eventType with
  | none => exact ⟨rfl, rfl, rfl⟩
  | some eventType =>
    cases eventType with
    | orderAccepted => exact ⟨rfl, rfl, rfl⟩
    | orderRejected => exact ⟨rfl, rfl, rfl⟩
    | orderRested | orderPartiallyFilled =>
      dsimp only
      unfold applyRested upsertOrder
      split_ifs <;> exact ⟨rfl, rfl, rfl⟩
    | tradeExecuted =>
      dsimp only
      unfold applyTrade
      cases orders.lookup event.contraOrderId with
      | none => split_ifs <;> exact ⟨rfl, rfl, rfl⟩
      | some restingOrder =>
        dsimp only
        split_ifs <;> exact ⟨rfl, rfl, rfl⟩
    | orderFullyFilled =>
      dsimp only
      unfold applyFilled
      split_ifs <;> exact ⟨rfl, rfl, rfl⟩
    | orderCancelled =>
      dsimp only
      unfold applyCancelled
      split_ifs <;> exact ⟨rfl, rfl, rfl⟩

/-- The projected orders after an event do not depend on the order of the visits. -/
theorem SameOrders.apply (h : p.SameOrders q) (order order' : IterationOrder)
    (event : ExecutionEventRecordV1) :
    (p.apply order event).2.SameOrders (q.apply order' event).2 := by
  obtain ⟨hresult, hsame⟩ := h.applyByType order order' event
  unfold MarketDataProjection.apply
  rw [h.2]
  dsimp only
  rw [hresult]
  split_ifs
  · exact h
  · exact ⟨hsame.1, rfl⟩
  · exact hsame

/-- Each of the orders was in the projection with its instrument, or is the one that the
event puts there. -/
def Explained (p : MarketDataProjection) (event : ExecutionEventRecordV1)
    (orders : ProjectedOrders) : Prop :=
  ∀ k o, orders.lookup k = some o →
    (∃ o', p.activeOrders.lookup k = some o' ∧ o'.instrumentId = o.instrumentId) ∨
      p.Rests event ∧ k = event.orderId ∧ o.instrumentId = event.instrumentId

theorem explained_self : p.Explained event p.activeOrders :=
  fun _ o hlookup => .inl ⟨o, hlookup, rfl⟩

/-- Dropping an order brings in no other. -/
theorem explained_erase (dropped : UInt64) :
    p.Explained event (p.activeOrders.erase dropped) :=
  fun _ o hlookup => .inl ⟨o, Finmap.lookup_of_lookup_erase hlookup, rfl⟩

/-- A projected order may change in all but its instrument. -/
theorem explained_replace {changed : UInt64} {o o' : OrderState}
    (hlookup : p.activeOrders.lookup changed = some o) (hsame : o.instrumentId = o'.instrumentId) :
    p.Explained event (p.activeOrders.insert changed o') := by
  intro k other hother
  rcases Finmap.cases_of_lookup_insert hother with ⟨rfl, rfl⟩ | ⟨-, hother⟩
  · exact .inl ⟨o, hlookup, hsame⟩
  · exact .inl ⟨other, hother, rfl⟩

/-- A resting event puts its order into the projection. -/
theorem explained_insert (hrests : p.Rests event) {o : OrderState}
    (hsame : o.instrumentId = event.instrumentId) :
    p.Explained event (p.activeOrders.insert event.orderId o) := by
  intro k other hother
  rcases Finmap.cases_of_lookup_insert hother with ⟨rfl, rfl⟩ | ⟨-, hother⟩
  · exact .inr ⟨hrests, rfl, hsame⟩
  · exact .inl ⟨other, hother, rfl⟩

theorem explained_applyRested (hnext : event.eventSequence = p.lastAppliedEventSequence + 1)
    (htype : decodeExecutionEventType event.eventType = some .orderRested ∨
      decodeExecutionEventType event.eventType = some .orderPartiallyFilled)
    (order : IterationOrder) : p.Explained event (p.applyRested order event).2.activeOrders := by
  unfold applyRested upsertOrder
  split
  · exact explained_self
  · rename_i hvisible
    split
    · exact explained_self
    · rename_i hvalid
      obtain ⟨hremaining, hside⟩ := not_or.mp hvisible
      obtain ⟨hid, hrest⟩ := not_or.mp hvalid
      have hknown : isBuy event.side ∨ isSell event.side := by
        by_contra hneither
        exact hside (not_or.mp hneither)
      exact explained_insert
        ⟨hnext, htype, hknown, hid, not_le.mp (not_or.mp hrest).1, not_le.mp hremaining⟩ rfl

theorem explained_applyTrade (order : IterationOrder) :
    p.Explained event (p.applyTrade order event).2.activeOrders := by
  unfold applyTrade
  split
  · exact explained_self
  · cases hlookup : p.activeOrders.lookup event.contraOrderId with
    | none => exact explained_self
    | some restingOrder =>
      dsimp only
      split
      · exact explained_self
      · dsimp only [rebuildBook]
        split
        · exact explained_erase event.contraOrderId
        · exact explained_replace hlookup rfl

/-- The `switch` puts no other order into the projection than that of a resting event. -/
theorem explained_applyByType (hnext : event.eventSequence = p.lastAppliedEventSequence + 1)
    (order : IterationOrder) : p.Explained event (p.applyByType order event).2.activeOrders := by
  unfold applyByType
  split
  · exact explained_self
  · exact explained_self
  · exact explained_applyRested hnext (.inl ‹_›) order
  · exact explained_applyRested hnext (.inr ‹_›) order
  · exact explained_applyTrade order
  · unfold applyFilled
    split
    · exact explained_self
    · exact explained_erase event.orderId
  · unfold applyCancelled
    split
    · exact explained_self
    · exact explained_erase event.orderId
  · exact explained_self

theorem explained_apply (order : IterationOrder) :
    p.Explained event (p.apply order event).2.activeOrders := by
  unfold apply
  split
  · exact explained_self
  · rename_i hnext
    dsimp only
    split
    · exact explained_applyByType (not_not.mp hnext) order
    · exact explained_applyByType (not_not.mp hnext) order

/-- An event that keeps to the instrument leaves the orders of one instrument. -/
theorem SameInstrument.apply (hp : p.SameInstrument) (hkeeps : p.KeepsInstrument event)
    (order : IterationOrder) : (p.apply order event).2.SameInstrument := by
  intro k o k' o' hlookup hlookup'
  rcases explained_apply order _ _ hlookup with ⟨old, hold, hinstrument⟩ | ⟨hrests, rfl, hnew⟩
  · rcases explained_apply order _ _ hlookup' with
      ⟨old', hold', hinstrument'⟩ | ⟨hrests, rfl, hnew'⟩
    · rw [← hinstrument, ← hinstrument']
      exact hp k old k' old' hold hold'
    · by_cases hk : k = event.orderId
      · subst hk
        rw [Option.some.inj (hlookup.symm.trans hlookup')]
      · rw [← hinstrument, hnew']
        exact hkeeps hrests k old hold hk
  · rcases explained_apply order _ _ hlookup' with ⟨old', hold', hinstrument'⟩ | ⟨-, rfl, hnew'⟩
    · by_cases hk' : k' = event.orderId
      · subst hk'
        rw [Option.some.inj (hlookup.symm.trans hlookup')]
      · rw [← hinstrument', hnew]
        exact (hkeeps hrests k' old' hold' hk').symm
    · rw [hnew, hnew']

end MarketDataProjection

/-- After each event the book is the same for every order of the visits, and each level
shows orders of the instrument of the book only. -/
def BookDetermined (events : List ExecutionEventRecordV1) : Prop :=
  ∀ shown, shown <+: events → ∀ orders orders' : ℕ → IterationOrder,
    let p := (feed orders shown).2
    p.book = (feed orders' shown).2.book ∧
      ∀ s, ∀ level ∈ p.book.levels s, ∀ orderId o, p.activeOrders.lookup orderId = some o →
        o.At s level.priceTicks → o.instrumentId = p.book.instrumentId

/-- Every event keeps to the instrument of the orders that are projected when it comes. -/
def OneInstrument (events : List ExecutionEventRecordV1) : Prop :=
  ∀ shown event, shown ++ [event] <+: events → ∀ orders : ℕ → IterationOrder,
    (feed orders shown).2.KeepsInstrument event

/-- The projected orders do not depend on the order of the visits. -/
theorem MarketDataProjection.feed_sameOrders (orders orders' : ℕ → IterationOrder)
    (events : List ExecutionEventRecordV1) :
    (feed orders events).2.SameOrders (feed orders' events).2 := by
  induction events using List.reverseRecOn with
  | nil => exact ⟨rfl, rfl⟩
  | append_singleton shown event ih =>
    rw [feed_concat, feed_concat]
    exact ih.apply _ _ event

/-- The first events keep to the instrument as well. -/
theorem OneInstrument.of_isPrefix {events shown : List ExecutionEventRecordV1}
    (hone : OneInstrument events) (hshown : shown <+: events) : OneInstrument shown :=
  fun earlier event hearlier => hone earlier event (hearlier.trans hshown)

/-- As long as every event keeps to the instrument, the orders are of one instrument. -/
theorem OneInstrument.sameInstrument {events : List ExecutionEventRecordV1}
    (hone : OneInstrument events) (orders : ℕ → IterationOrder) :
    (feed orders events).2.SameInstrument := by
  induction events using List.reverseRecOn with
  | nil => exact fun _ _ _ _ hlookup => absurd hlookup (by simp [feed])
  | append_singleton shown event ih =>
    have hshown := hone.of_isPrefix (List.prefix_append shown [event])
    rw [feed_concat]
    exact (ih hshown).apply (hone shown event List.prefix_rfl orders) _

/-- After a resting event, the order that is visited last decides about the instrument of
the book. -/
theorem MarketDataProjection.feed_last {orders : ℕ → IterationOrder}
    {shown : List ExecutionEventRecordV1} {event : ExecutionEventRecordV1}
    (hrests : (feed orders shown).2.Rests event) {k : UInt64} {o : OrderState}
    (hlookup : ((feed orders shown).2.activeOrders.insert event.orderId (restedOrder event)).lookup
      k = some o) :
    (feed (fun _ => .last k) (shown ++ [event])).2.book.instrumentId = o.instrumentId := by
  obtain ⟨horders, hlast⟩ := feed_sameOrders orders (fun _ => .last k) shown
  have hrests' : (feed (fun _ => .last k) shown).2.Rests event := ⟨hlast ▸ hrests.1, hrests.2⟩
  rw [feed_concat, apply_of_rests hrests']
  rw [horders] at hlookup
  exact rebuildBook_last hlookup

/-- The public book is determined by the events exactly when every order that is put into
the projection is of the instrument of the other projected orders. -/
theorem public_book_is_determined_iff (events : List ExecutionEventRecordV1) :
    BookDetermined events ↔ OneInstrument events := by
  constructor
  · intro hdetermined shown event hshown orders hrests k o hlookup hk
    have hother : (feed (fun _ => .last k) (shown ++ [event])).2.book.instrumentId =
        o.instrumentId :=
      feed_last hrests ((Finmap.lookup_insert_of_ne _ hk).trans hlookup)
    have hnew : (feed (fun _ => .last event.orderId) (shown ++ [event])).2.book.instrumentId =
        event.instrumentId :=
      feed_last hrests (Finmap.lookup_insert _)
    rw [← hother, ← hnew, (hdetermined _ hshown (fun _ => .last k) _).1]
  · intro hone shown hshown orders orders' p
    have hsame : p.SameInstrument := (hone.of_isPrefix hshown).sameInstrument orders
    obtain ⟨-, order, hbook⟩ := feed_current orders shown
    obtain ⟨-, order', hbook'⟩ := feed_current orders' shown
    refine ⟨?_, fun s level _ k o hlookup _ => ?_⟩
    · rw [hbook', ← rebuildBook_congr (feed_sameOrders orders orders' shown).1,
        rebuildBook_independent_iff.mpr hsame order' order]
      exact hbook
    · have hinstrument := p.rebuildBook_instrumentId order
        (fun k' o' hlookup' => hsame k' o' k o hlookup' hlookup)
        ⟨k, Finmap.mem_iff.mpr ⟨o, hlookup⟩⟩
      rw [← hinstrument, ← hbook]

/-- Two orders of different instruments at one price: the instrument of the book is that
of the order that is visited last. -/
theorem public_book_is_not_determined :
    ¬ BookDetermined
      [{ eventSequence := 1, orderId := 1, priceTicks := 10, remainingQuantityLots := 2,
         instrumentId := 7, eventType := 4, side := 1 },
       { eventSequence := 2, orderId := 2, priceTicks := 10, remainingQuantityLots := 3,
         instrumentId := 8, eventType := 4, side := 1 }] := by
  intro hdetermined
  have hrests : (feed (fun _ => .byId)
      [{ eventSequence := 1, orderId := 1, priceTicks := 10, remainingQuantityLots := 2,
         instrumentId := 7, eventType := 4, side := 1 }]).2.Rests
      { eventSequence := 2, orderId := 2, priceTicks := 10, remainingQuantityLots := 3,
        instrumentId := 8, eventType := 4, side := 1 } :=
    ⟨rfl, .inl rfl, .inl rfl, by decide, by decide, by decide⟩
  have hfirst := @feed_last _ _ _ hrests 1 ⟨7, 1, 10, 2⟩ rfl
  have hsecond := @feed_last _ _ _ hrests 2 ⟨8, 1, 10, 3⟩ rfl
  have hsame := congrArg PublicBookView.instrumentId
    (hdetermined _ List.prefix_rfl (fun _ => .last 1) fun _ => .last 2).1
  exact absurd (hfirst.symm.trans (hsame.trans hsecond)) (by decide)

end MatchingEngine
