import Mathlib.Algebra.Order.BigOperators.Group.List
import Mathlib.Algebra.Order.Group.Int
import Mathlib.Algebra.Ring.Int.Defs
import MatchingEngine.Library.Totals
import MatchingEngine.Projections.Atomicity

/-!
# The public book is the aggregate of the projected orders

`rebuild_book` adds up the projected orders while it visits them in an unspecified order.
The book it leaves depends on the orders only: each side lists the prices at which the side
has orders, best price first, with the total of their quantities.
-/

namespace MatchingEngine

/-- The public levels of a side. -/
def PublicBookView.levels (book : PublicBookView) : Side → List PublicPriceLevel
  | .buy => book.bids
  | .sell => book.asks

/-- A projected order belongs to this side and price. -/
def OrderState.At (s : Side) (priceTicks : Int64) (o : OrderState) : Prop :=
  o.side = s.code ∧ o.priceTicks = priceTicks

instance (s : Side) (priceTicks : Int64) (o : OrderState) : Decidable (o.At s priceTicks) :=
  inferInstanceAs (Decidable (_ ∧ _))

/-- What a projected order adds to the level of this side and price. -/
def OrderState.visible (s : Side) (priceTicks : Int64) (o : OrderState) : ℤ :=
  if o.At s priceTicks then o.remainingQuantityLots.toInt else 0

/-- The sum of the remaining quantities of the projected orders of this side and price. -/
def visibleQuantity (orders : ProjectedOrders) (s : Side) (priceTicks : Int64) : ℤ :=
  orders.total (OrderState.visible s priceTicks)

/-- A projected order can be shown. -/
structure OrderState.Proper (orderId : UInt64) (o : OrderState) : Prop where
  orderId : orderId ≠ 0
  side : o.side = Side.buy.code ∨ o.side = Side.sell.code
  price : 0 < o.priceTicks
  remaining : 0 < o.remainingQuantityLots

/-- The book lists the prices of the orders, best price first, with their quantities. -/
structure PublicBookView.Aggregates (book : PublicBookView) (orders : ProjectedOrders) : Prop where
  sorted : ∀ s, (book.levels s).Pairwise fun a b => s.Better a.priceTicks b.priceTicks
  prices : ∀ s priceTicks, (∃ level ∈ book.levels s, level.priceTicks = priceTicks) ↔
    ∃ orderId o, orders.lookup orderId = some o ∧ o.At s priceTicks
  quantity : ∀ s, ∀ level ∈ book.levels s,
    level.quantityLots.toInt = visibleQuantity orders s level.priceTicks

/-! ## Adding up -/

/-- The sums of a side. -/
def BookSums.levels (sums : BookSums) : (s : Side) → OrderedMap s.Better Int64
  | .buy => sums.bids
  | .sell => sums.asks

/-- One iteration adds an order to the sum of its side and price and to no other sum. -/
theorem BookSums.find?_add (sums : BookSums) (entry : UInt64 × OrderState) (s : Side)
    (priceTicks : Int64) :
    ((sums.add entry).levels s).find? priceTicks =
      if entry.2.At s priceTicks then
        some (((sums.levels s).find? priceTicks).getD 0 + entry.2.remainingQuantityLots)
      else (sums.levels s).find? priceTicks := by
  have hupsert : ∀ {t : Side} (levels : OrderedMap t.Better Int64),
      (levels.upsert entry.2.priceTicks 0 (· + entry.2.remainingQuantityLots)).find? priceTicks =
        if entry.2.priceTicks = priceTicks then
          some ((levels.find? priceTicks).getD 0 + entry.2.remainingQuantityLots)
        else levels.find? priceTicks := by
    intro t levels
    rw [OrderedMap.find?_upsert]
    by_cases hprice : entry.2.priceTicks = priceTicks
    · rw [if_pos hprice.symm, if_pos hprice, hprice]
    · rw [if_neg (Ne.symm hprice), if_neg hprice]
  have hother : ∀ t, entry.2.side ≠ Side.code t → ¬ entry.2.At t priceTicks :=
    fun t hside h => hside h.1
  unfold add isBuy isSell
  by_cases hbuy : entry.2.side = Side.buy.code
  · simp only [hbuy, decide_true, if_true]
    cases s with
    | buy =>
      have hat : entry.2.At .buy priceTicks ↔ entry.2.priceTicks = priceTicks := and_iff_right hbuy
      simp only [hat]
      exact hupsert sums.bids
    | sell =>
      rw [if_neg (hother .sell (by rw [hbuy]; decide))]
      rfl
  · simp only [hbuy, decide_false, Bool.false_eq_true, if_false, decide_eq_true_eq]
    by_cases hsell : entry.2.side = Side.sell.code
    · rw [if_pos hsell]
      cases s with
      | buy =>
        rw [if_neg (hother .buy hbuy)]
        rfl
      | sell =>
        have hat : entry.2.At .sell priceTicks ↔ entry.2.priceTicks = priceTicks :=
          and_iff_right hsell
        simp only [hat]
        exact hupsert sums.asks
    · rw [if_neg hsell]
      cases s with
      | buy =>
        rw [if_neg (hother .buy hbuy)]
        rfl
      | sell =>
        rw [if_neg (hother .sell hsell)]
        rfl

/-- The first loop adds the orders of a side and price up, in whatever order it visits them. -/
theorem BookSums.getD_find?_foldl_add (sums : BookSums) (entries : List (UInt64 × OrderState))
    (s : Side) (priceTicks : Int64) :
    (((entries.foldl BookSums.add sums).levels s).find? priceTicks).getD 0 =
      ((sums.levels s).find? priceTicks).getD 0 +
        .ofInt (entries.map fun entry => entry.2.visible s priceTicks).sum := by
  induction entries generalizing sums with
  | nil => exact (Int64.add_zero _).symm
  | cons entry entries ih =>
    have hentry : (((sums.add entry).levels s).find? priceTicks).getD 0 =
        ((sums.levels s).find? priceTicks).getD 0 + .ofInt (entry.2.visible s priceTicks) := by
      rw [find?_add, OrderState.visible]
      split
      · rw [Option.getD_some, Int64.ofInt_toInt]
      · exact (Int64.add_zero _).symm
    rw [List.foldl_cons, ih, hentry, List.map_cons, List.sum_cons, Int64.ofInt_add,
      Int64.add_assoc]

/-- A side and price has a sum exactly when one of the orders belongs to it. -/
theorem BookSums.isSome_find?_foldl_add (sums : BookSums) (entries : List (UInt64 × OrderState))
    (s : Side) (priceTicks : Int64) :
    (((entries.foldl BookSums.add sums).levels s).find? priceTicks).isSome ↔
      ((sums.levels s).find? priceTicks).isSome ∨ ∃ entry ∈ entries, entry.2.At s priceTicks := by
  induction entries generalizing sums with
  | nil => simp
  | cons entry entries ih =>
    rw [List.foldl_cons, ih, find?_add, List.exists_mem_cons_iff]
    by_cases hentry : entry.2.At s priceTicks
    · simp [hentry]
    · simp [hentry]

/-- The public levels are the positive sums, in the order of their prices. -/
theorem mem_publicLevels {s : Side} {levels : OrderedMap s.Better Int64}
    {level : PublicPriceLevel} :
    level ∈ publicLevels levels ↔
      levels.find? level.priceTicks = some level.quantityLots ∧ 0 < level.quantityLots := by
  unfold publicLevels
  rw [List.mem_map, ← levels.mem_entries_iff]
  constructor
  · rintro ⟨entry, hentry, rfl⟩
    obtain ⟨hmem, hpos⟩ := List.mem_filter.mp hentry
    exact ⟨hmem, of_decide_eq_true hpos⟩
  · rintro ⟨hmem, hpos⟩
    exact ⟨_, List.mem_filter.mpr ⟨hmem, decide_eq_true hpos⟩, rfl⟩

theorem publicLevels_sorted {s : Side} (levels : OrderedMap s.Better Int64) :
    (publicLevels levels).Pairwise fun a b => s.Better a.priceTicks b.priceTicks :=
  List.pairwise_map.mpr (levels.sorted.filter _)

/-- Where an order is visible, a positive quantity is. -/
theorem visibleQuantity_pos {orders : ProjectedOrders}
    (hpos : ∀ orderId o, orders.lookup orderId = some o → 0 < o.remainingQuantityLots)
    {s : Side} {priceTicks : Int64} {orderId : UInt64} {o : OrderState}
    (hlookup : orders.lookup orderId = some o) (hat : o.At s priceTicks) :
    0 < visibleQuantity orders s priceTicks := by
  obtain ⟨entries, hnodup, hmem⟩ := orders.exists_entries
  have hnonneg : ∀ quantity ∈ entries.map fun entry => entry.2.visible s priceTicks,
      0 ≤ quantity := by
    intro quantity hquantity
    obtain ⟨entry, hentry, rfl⟩ := List.mem_map.mp hquantity
    have hentryPos := hpos entry.1 entry.2 ((hmem _ _).mp hentry)
    unfold OrderState.visible
    split
    · exact (FixedWidth.pos_iff.mp hentryPos).le
    · exact le_rfl
  have hsome : o.remainingQuantityLots.toInt ∈
      entries.map fun entry => entry.2.visible s priceTicks :=
    List.mem_map.mpr ⟨(orderId, o), (hmem _ _).mpr hlookup, if_pos hat⟩
  unfold visibleQuantity
  rw [Finmap.total_eq_sum hnodup hmem]
  exact (FixedWidth.pos_iff.mp (hpos orderId o hlookup)).trans_le
    (List.single_le_sum hnonneg _ hsome)

/-- An empty map is not visited. -/
theorem IterationOrder.visit_empty (order : IterationOrder) : order.visit ∅ = [] := by
  refine List.eq_nil_iff_forall_not_mem.mpr fun entry hentry => ?_
  have hlookup := (order.mem_iff ∅ entry.1 entry.2).mp hentry
  rw [Finmap.lookup_empty] at hlookup
  cases hlookup

namespace MarketDataProjection

variable (p : MarketDataProjection) (order : IterationOrder)

/-- The local variables of `rebuild_book` after its first loop. -/
def sums : BookSums :=
  (order.visit p.activeOrders).foldl BookSums.add ⟨0, OrderedMap.empty, OrderedMap.empty⟩

theorem rebuildBook_levels (s : Side) :
    (p.rebuildBook order).book.levels s = publicLevels ((p.sums order).levels s) := by
  cases s <;> rfl

/-- The sums at the end of the loop are those of the projected orders, up to overflow. -/
theorem getD_find?_sums (s : Side) (priceTicks : Int64) :
    (((p.sums order).levels s).find? priceTicks).getD 0 =
      .ofInt (visibleQuantity p.activeOrders s priceTicks) := by
  have hstart : ((BookSums.levels ⟨0, OrderedMap.empty, OrderedMap.empty⟩ s).find?
      priceTicks).getD 0 = 0 := by cases s <;> rfl
  unfold sums visibleQuantity
  rw [BookSums.getD_find?_foldl_add, hstart, Int64.zero_add,
    Finmap.total_eq_sum (order.nodup _) (order.mem_iff _)]

/-- There is a sum for every side and price that has an order. -/
theorem isSome_find?_sums (s : Side) (priceTicks : Int64) :
    (((p.sums order).levels s).find? priceTicks).isSome ↔
      ∃ orderId o, p.activeOrders.lookup orderId = some o ∧ o.At s priceTicks := by
  have hstart : (BookSums.levels ⟨0, OrderedMap.empty, OrderedMap.empty⟩ s).find? priceTicks =
      none := by cases s <;> rfl
  unfold sums
  rw [BookSums.isSome_find?_foldl_add, hstart]
  constructor
  · rintro (h | ⟨entry, hentry, hat⟩)
    · cases h
    · exact ⟨entry.1, entry.2, (order.mem_iff _ _ _).mp hentry, hat⟩
  · rintro ⟨orderId, o, hlookup, hat⟩
    exact Or.inr ⟨(orderId, o), (order.mem_iff _ _ _).mpr hlookup, hat⟩

/-- A rebuilt book aggregates the projected orders. -/
theorem rebuildBook_aggregates
    (hpos : ∀ orderId o, p.activeOrders.lookup orderId = some o → 0 < o.remainingQuantityLots)
    (hbounded : ∀ s priceTicks,
      visibleQuantity p.activeOrders s priceTicks ≤ Int64.maxValue.toInt) :
    (p.rebuildBook order).book.Aggregates p.activeOrders := by
  -- a sum of positive quantities that fits is positive and exact
  have hexact : ∀ s priceTicks, (((p.sums order).levels s).find? priceTicks).isSome →
      0 < (((p.sums order).levels s).find? priceTicks).getD 0 ∧
      ((((p.sums order).levels s).find? priceTicks).getD 0).toInt =
        visibleQuantity p.activeOrders s priceTicks := by
    intro s priceTicks hsome
    obtain ⟨orderId, o, hlookup, hat⟩ := (p.isSome_find?_sums order s priceTicks).mp hsome
    have hvisible := visibleQuantity_pos hpos hlookup hat
    have hfits := hbounded s priceTicks
    have hvalue : (Int64.ofInt (visibleQuantity p.activeOrders s priceTicks)).toInt =
        visibleQuantity p.activeOrders s priceTicks := by
      rw [Int64.toInt_maxValue] at hfits
      exact Int64.toInt_ofInt_of_le (by omega) (by omega)
    rw [getD_find?_sums, FixedWidth.pos_iff, hvalue]
    exact ⟨hvisible, rfl⟩
  refine ⟨fun s => ?_, fun s priceTicks => ?_, fun s level hlevel => ?_⟩
  · rw [rebuildBook_levels]
    exact publicLevels_sorted _
  · rw [rebuildBook_levels, ← p.isSome_find?_sums order]
    constructor
    · rintro ⟨level, hlevel, rfl⟩
      rw [(mem_publicLevels.mp hlevel).1]
      rfl
    · intro hsome
      obtain ⟨hpositive, -⟩ := hexact s priceTicks hsome
      obtain ⟨quantity, hfind⟩ := Option.isSome_iff_exists.mp hsome
      rw [hfind] at hpositive
      exact ⟨⟨priceTicks, quantity⟩, mem_publicLevels.mpr ⟨hfind, hpositive⟩, rfl⟩
  · rw [rebuildBook_levels] at hlevel
    obtain ⟨hfind, -⟩ := mem_publicLevels.mp hlevel
    obtain ⟨-, hvalue⟩ := hexact s level.priceTicks (by rw [hfind]; rfl)
    rwa [hfind] at hvalue

/-! ## Applying events -/

/-- Every projected order can be shown. -/
def Proper : Prop := ∀ orderId o, p.activeOrders.lookup orderId = some o → o.Proper orderId

/-- What an applied event changes: one order is put in its place, or one is gone. -/
inductive Changes : ProjectedOrders → Prop
  | puts (orderId : UInt64) (o : OrderState) (hproper : o.Proper orderId) :
      Changes (p.activeOrders.insert orderId o)
  | drops (orderId : UInt64) : Changes (p.activeOrders.erase orderId)

variable {p}

/-- A changed map of proper orders is one. -/
theorem Changes.proper {orders : ProjectedOrders} (h : p.Changes orders) (hp : p.Proper) :
    ∀ orderId o, orders.lookup orderId = some o → o.Proper orderId := by
  intro orderId o hlookup
  cases h with
  | puts changedId changed hproper =>
    rcases Finmap.cases_of_lookup_insert hlookup with ⟨rfl, rfl⟩ | ⟨-, hlookup⟩
    · exact hproper
    · exact hp orderId o hlookup
  | drops changedId => exact hp orderId o (Finmap.lookup_of_lookup_erase hlookup)

/-- A handler that applies its event changes the orders and then rebuilds the book. -/
def Rebuilds (p : MarketDataProjection) (order : IterationOrder)
    (outcome : ProjectionApplyResult × MarketDataProjection) : Prop :=
  outcome.1.status = .applied →
    ∃ q : MarketDataProjection, p.Changes q.activeOrders ∧ outcome.2 = q.rebuildBook order

theorem rebuilds_ignored : p.Rebuilds order (ignored, p) := fun h => by cases h

theorem rebuilds_rejected (error : String) : p.Rebuilds order (rejected error, p) :=
  fun h => by cases h

theorem rebuilds_removeOrder (orderId : UInt64) :
    p.Rebuilds order (p.removeOrder order orderId) :=
  fun _ => ⟨{ p with activeOrders := p.activeOrders.erase orderId }, .drops orderId, rfl⟩

theorem rebuilds_applyRested (event : ExecutionEventRecordV1) :
    p.Rebuilds order (p.applyRested order event) := by
  unfold applyRested upsertOrder
  split
  · exact rebuilds_rejected order _
  · rename_i hvisible
    split
    · exact rebuilds_rejected order _
    · rename_i hvalid
      obtain ⟨hremaining, hside⟩ := not_or.mp hvisible
      obtain ⟨hid, hrest⟩ := not_or.mp hvalid
      refine fun _ => ⟨{ p with activeOrders := p.activeOrders.insert event.orderId _ },
        .puts event.orderId _ ⟨hid, ?_, not_le.mp (not_or.mp hrest).1, not_le.mp hremaining⟩, rfl⟩
      simpa [isBuy, isSell, or_iff_not_imp_left] using hside

theorem rebuilds_applyTrade (hp : p.Proper) (event : ExecutionEventRecordV1) :
    p.Rebuilds order (p.applyTrade order event) := by
  unfold applyTrade
  split
  · exact rebuilds_rejected order _
  · rename_i hvalid
    obtain ⟨hquantity, hid⟩ := not_or.mp hvalid
    cases hlookup : p.activeOrders.lookup event.contraOrderId with
    | none => exact rebuilds_rejected order _
    | some restingOrder =>
      obtain ⟨-, hside, hprice, -⟩ := hp _ _ hlookup
      simp only
      split
      · exact rebuilds_rejected order _
      · rename_i hexceeds
        refine fun _ => ⟨_, ?_, rfl⟩
        by_cases hgone : restingOrder.remainingQuantityLots - event.quantityLots = 0
        · simp only [if_pos hgone]
          exact .drops event.contraOrderId
        · simp only [if_neg hgone]
          refine .puts event.contraOrderId _ ⟨hid, hside, hprice, ?_⟩
          have hpos := FixedWidth.pos_iff.mp (not_le.mp hquantity)
          have hle := Int64.le_iff_toInt_le.mp (not_lt.mp hexceeds)
          rw [FixedWidth.eq_zero_iff, FixedWidth.toInt_sub_of_le hpos.le hle] at hgone
          rw [FixedWidth.pos_iff, FixedWidth.toInt_sub_of_le hpos.le hle]
          omega

/-- The `switch` applies an event by one change of the orders, and then rebuilds the book. -/
theorem rebuilds_applyByType (hp : p.Proper) (event : ExecutionEventRecordV1) :
    p.Rebuilds order (p.applyByType order event) := by
  unfold applyByType
  split
  · exact rebuilds_ignored order
  · exact rebuilds_ignored order
  · exact rebuilds_applyRested order event
  · exact rebuilds_applyRested order event
  · exact rebuilds_applyTrade order hp event
  · unfold applyFilled
    split
    · exact rebuilds_ignored order
    · exact rebuilds_removeOrder order event.orderId
  · unfold applyCancelled
    split
    · exact rebuilds_rejected order _
    · exact rebuilds_removeOrder order event.orderId
  · exact rebuilds_rejected order _

/-- The projected orders can be shown, and the book is what `rebuild_book` makes of them. -/
structure Current (p : MarketDataProjection) : Prop where
  proper : p.Proper
  book : ∃ order, p.book = (p.rebuildBook order).book

/-- Every event keeps the book current. -/
theorem Current.apply (hp : p.Current) (event : ExecutionEventRecordV1) :
    (p.apply order event).2.Current := by
  cases hstatus : (p.apply order event).1.status with
  | rejected => rwa [p.apply_rejected order event hstatus]
  | ignored =>
    rw [p.apply_ignored order event hstatus]
    exact ⟨hp.proper, hp.book⟩
  | applied =>
    have haccepted : (p.apply order event).1.status ≠ .rejected := by rw [hstatus]; decide
    have hnext : event.eventSequence = p.lastAppliedEventSequence + 1 := by
      by_contra hgap
      exact haccepted (p.apply_of_gap order event hgap).1
    obtain ⟨hresult, hprojection⟩ := apply_of_next order hnext
    obtain ⟨q, hchanges, hrebuilt⟩ :=
      rebuilds_applyByType order hp.proper event (hresult ▸ hstatus)
    rw [hprojection haccepted, hrebuilt]
    exact ⟨hchanges.proper hp.proper, order, rfl⟩

/-- A fresh projection is current. -/
theorem current_fresh : Current {} where
  proper _ _ h := by cases h
  book := by
    refine ⟨.byId, ?_⟩
    unfold rebuildBook
    rw [IterationOrder.visit_empty]
    rfl

/-- A projection that was fed any events is current. -/
theorem feed_current (orders : ℕ → IterationOrder) (events : List ExecutionEventRecordV1) :
    (feed orders events).2.Current :=
  projectionMachine.run_induction (P := fun _ p => p.Current) current_fresh
    (fun _ _ input hp => hp.apply input.1 input.2) _

end MarketDataProjection

/-- After any events whatever, the public book is the aggregate of the projected orders,
as long as no sum of quantities exceeds the largest `int64`. -/
theorem public_book_is_aggregate (orders : ℕ → IterationOrder)
    (events : List ExecutionEventRecordV1)
    (hbounded : ∀ s priceTicks,
      visibleQuantity (MarketDataProjection.feed orders events).2.activeOrders s priceTicks ≤
        Int64.maxValue.toInt) :
    let p := (MarketDataProjection.feed orders events).2
    (∀ orderId o, p.activeOrders.lookup orderId = some o →
        orderId ≠ 0 ∧ (o.side = Side.buy.code ∨ o.side = Side.sell.code) ∧
          0 < o.priceTicks ∧ 0 < o.remainingQuantityLots) ∧
      p.book.bids.Pairwise (fun a b => b.priceTicks < a.priceTicks) ∧
      p.book.asks.Pairwise (fun a b => a.priceTicks < b.priceTicks) ∧
      (∀ s priceTicks, (∃ level ∈ p.book.levels s, level.priceTicks = priceTicks) ↔
        ∃ orderId o, p.activeOrders.lookup orderId = some o ∧ o.At s priceTicks) ∧
      ∀ s, ∀ level ∈ p.book.levels s,
        level.quantityLots.toInt = visibleQuantity p.activeOrders s level.priceTicks := by
  intro p
  obtain ⟨hproper, order, hbook⟩ := MarketDataProjection.feed_current orders events
  have haggregates := p.rebuildBook_aggregates order
    (fun orderId o hlookup => (hproper orderId o hlookup).remaining) hbounded
  rw [← hbook] at haggregates
  refine ⟨fun orderId o hlookup => ?_, haggregates.sorted .buy, haggregates.sorted .sell,
    haggregates.prices, haggregates.quantity⟩
  obtain ⟨hid, hside, hprice, hremaining⟩ := hproper orderId o hlookup
  exact ⟨hid, hside, hprice, hremaining⟩

/-- Two buy orders at a price and a sell order at another one; an event that comes too early is
refused and shows nothing. -/
theorem public_book_is_aggregate_rested :
    let events : List ExecutionEventRecordV1 :=
      [{ eventSequence := 1, orderId := 1, priceTicks := 10, remainingQuantityLots := 2
         instrumentId := 7, eventType := 4, side := 1 },
       { eventSequence := 2, orderId := 2, priceTicks := 10, remainingQuantityLots := 3
         instrumentId := 7, eventType := 4, side := 1 },
       { eventSequence := 5, orderId := 3, priceTicks := 10, remainingQuantityLots := 9
         instrumentId := 7, eventType := 4, side := 1 },
       { eventSequence := 3, orderId := 4, priceTicks := 12, remainingQuantityLots := 4
         instrumentId := 7, eventType := 4, side := 2 }]
    let book := (MarketDataProjection.feed (fun _ => .byId) events).2.book
    (∃ level ∈ book.bids, level.priceTicks = 10) ∧
      (∀ level ∈ book.bids, level.priceTicks = 10 → level.quantityLots.toInt = 5) ∧
      ∃ level ∈ book.asks, level.priceTicks = 12 := by
  intro events book
  have horders : (MarketDataProjection.feed (fun _ => .byId) events).2.activeOrders =
      (((∅ : ProjectedOrders).insert 1 ⟨7, 1, 10, 2⟩).insert 2 ⟨7, 1, 10, 3⟩).insert 4
        ⟨7, 2, 12, 4⟩ := rfl
  have hvisible : ∀ s priceTicks, visibleQuantity
      (MarketDataProjection.feed (fun _ => .byId) events).2.activeOrders s priceTicks =
        OrderState.visible s priceTicks ⟨7, 2, 12, 4⟩ +
          (OrderState.visible s priceTicks ⟨7, 1, 10, 3⟩ +
            (OrderState.visible s priceTicks ⟨7, 1, 10, 2⟩ + 0)) := by
    intro s priceTicks
    rw [horders, visibleQuantity, Finmap.total_insert_of_notMem (by decide),
      Finmap.total_insert_of_notMem (by decide), Finmap.total_insert_of_notMem (by decide),
      Finmap.total_empty]
  obtain ⟨-, -, -, hprices, hquantity⟩ :=
    public_book_is_aggregate (fun _ => .byId) events fun s priceTicks => by
      rw [hvisible]
      unfold OrderState.visible
      split_ifs <;> decide
  refine ⟨(hprices .buy 10).mpr ⟨2, ⟨7, 1, 10, 3⟩, ?_, by decide⟩, ?_,
    (hprices .sell 12).mpr ⟨4, ⟨7, 2, 12, 4⟩, ?_, by decide⟩⟩
  · rw [horders, Finmap.lookup_insert_of_ne _ (by decide), Finmap.lookup_insert]
  · intro level hlevel hprice
    rw [hquantity .buy level hlevel, hprice, hvisible]
    decide
  · rw [horders, Finmap.lookup_insert]

end MatchingEngine
