import MatchingEngine.Core.ActiveQuantity
import MatchingEngine.Core.Turnover
import MatchingEngine.Projections.DepthOverflow

/-!
# What `rebuild_book` makes of the engine's orders

A projection in step with the engine shows what `rebuild_book` makes of the levels of the order
book: the sum of every queue, wrapped to `int64`, where that is positive. As long as no level
holds more than the largest `int64`, this is what the book holds.
-/

namespace MatchingEngine

/-- What `rebuild_book` makes of the levels of a side: the sums, wrapped to `int64`, that are
positive. -/
def OrderBook.rebuiltLevels (book : OrderBook) (s : Side) : List PublicPriceLevel :=
  ((book.levels s).map fun level => ⟨level.1, .ofInt (queueQuantity level.2)⟩).filter fun level =>
    0 < level.quantityLots

/-- What `rebuild_book` makes of the book. Without orders there is no instrument. -/
def OrderBook.rebuiltBook (book : OrderBook) : PublicBookView where
  instrumentId := if book.activeOrderCount = 0 then 0 else book.instrumentId.getD 0
  bids := book.rebuiltLevels .buy
  asks := book.rebuiltLevels .sell

/-- What `rebuild_book` makes of the levels of a side at a moment. -/
def Moment.rebuiltLevels (m : Moment) (s : Side) : List PublicPriceLevel :=
  ((m.levels s).map fun level => ⟨level.1, .ofInt (queueQuantity level.2)⟩).filter fun level =>
    0 < level.quantityLots

/-- What `rebuild_book` makes of a moment, without the incoming order. -/
def Moment.rebuiltBook (m : Moment) : PublicBookView where
  instrumentId := if m.activeOrders.keys.card = 0 then 0 else m.instrumentId.getD 0
  bids := m.rebuiltLevels .buy
  asks := m.rebuiltLevels .sell

/-- What is made of a book is what is made of its moment. -/
theorem OrderBook.rebuiltBook_moment (book : OrderBook) (incoming : Option IncomingOrder) :
    (book.moment incoming).rebuiltBook = book.rebuiltBook := rfl

/-! ## The quantity of a level -/

section Levels

variable {m : Moment} {s : Side}

theorem queueQuantity_eq (queue : List RestingOrder) :
    queueQuantity queue = (queue.map RestingOrder.offer).sum := by
  induction queue with
  | nil => rfl
  | cons o queue ih =>
    rw [queueQuantity_cons, ih, List.map_cons, List.sum_cons]
    rfl

/-- The active orders at the price of a level are those in its queue. -/
theorem Moment.WellFormed.activeQuantity_eq (hwf : m.WellFormed) {level : PriceLevel}
    (hlevel : level ∈ m.levels s) :
    activeQuantity m.activeOrders s level.1 = queueQuantity level.2 := by
  obtain ⟨before, after, hsplit⟩ := List.append_of_mem hlevel
  have hsorted := hwf.sorted s
  rw [hsplit] at hsorted
  obtain ⟨-, hafter, hbefore⟩ := List.pairwise_append.mp hsorted
  have hzero : ∀ levels : List PriceLevel, (∀ other ∈ levels, other ∈ m.levels s) →
      (∀ other ∈ levels, other.1 ≠ level.1) →
      ((queued levels).map (RestingOrder.quantityAt s level.1)).sum = 0 := by
    intro levels hin hne
    refine List.sum_eq_zero fun quantity hquantity => ?_
    obtain ⟨o, ho, rfl⟩ := List.mem_map.mp hquantity
    obtain ⟨other, hother, ho⟩ := mem_queued.mp ho
    refine if_neg fun hat => hne other hother ?_
    rw [← ((hwf.level s other (hin other hother)).order o ho).price]
    exact hat.2
  have hown : level.2.map (RestingOrder.quantityAt s level.1) =
      level.2.map RestingOrder.offer := by
    refine List.map_congr_left fun o ho => if_pos ?_
    have hok := (hwf.level s level hlevel).order o ho
    exact ⟨hok.side, hok.price⟩
  have hopposite : ((queued (m.levels s.opposite)).map
      (RestingOrder.quantityAt s level.1)).sum = 0 := by
    refine List.sum_eq_zero fun quantity hquantity => ?_
    obtain ⟨o, ho, rfl⟩ := List.mem_map.mp hquantity
    refine if_neg fun hat => ?_
    rw [hwf.side_of_queued ho] at hat
    exact s.opposite_ne (Side.code_injective hat.1)
  have hin : ∀ other ∈ before ++ after, other ∈ m.levels s := by
    intro other hother
    rw [hsplit]
    rcases List.mem_append.mp hother with h | h
    · exact List.mem_append_left _ h
    · exact List.mem_append_right _ (List.mem_cons_of_mem _ h)
  have hnot : ∀ other ∈ before ++ after, other.1 ≠ level.1 := by
    intro other hother heq
    rcases List.mem_append.mp hother with h | h
    · have hbetter := hbefore other h level List.mem_cons_self
      rw [heq] at hbetter
      exact irrefl _ hbetter
    · have hbetter := (List.pairwise_cons.mp hafter).1 other h
      rw [heq] at hbetter
      exact irrefl _ hbetter
  have hothers := hzero (before ++ after) hin hnot
  rw [queued_append, List.map_append, List.sum_append] at hothers
  unfold activeQuantity
  rw [hwf.total_eq s, hopposite, hsplit, queued_append, queued_cons, List.map_append,
    List.map_append, List.sum_append, List.sum_append, hown, queueQuantity_eq]
  omega

/-- There are active orders of a side and price exactly when there is a level. -/
theorem Moment.WellFormed.exists_level_iff (hwf : m.WellFormed) {priceTicks : Int64} :
    (∃ level ∈ m.levels s, level.1 = priceTicks) ↔
      ∃ orderId o, m.activeOrders.lookup orderId = some o ∧ o.side = s.code ∧
        o.priceTicks = priceTicks := by
  constructor
  · rintro ⟨level, hlevel, rfl⟩
    have hok := hwf.level s level hlevel
    obtain ⟨o, rest, hqueue⟩ := List.exists_cons_of_ne_nil hok.nonempty
    have ho : o ∈ level.2 := by rw [hqueue]; exact List.mem_cons_self
    refine ⟨o.orderId, o, ((hwf.indexed s).lookup_iff _ _).mpr ⟨?_, rfl⟩, (hok.order o ho).side,
      (hok.order o ho).price⟩
    exact List.mem_append_left _ (mem_queued.mpr ⟨level, hlevel, ho⟩)
  · rintro ⟨orderId, o, hlookup, hside, rfl⟩
    obtain ⟨t, level, hlevel, -, hok⟩ := hwf.queued_of_lookup hlookup
    obtain rfl : t = s := Side.code_injective (hok.side.symm.trans hside)
    exact ⟨level, hlevel, hok.price.symm⟩

end Levels

/-! ## The projection shows it -/

/-- Sorted lists of levels with the same levels are equal. -/
theorem eq_of_sorted {s : Side} {levels levels' : List PublicPriceLevel}
    (hsorted : levels.Pairwise fun a b => s.Better a.priceTicks b.priceTicks)
    (hsorted' : levels'.Pairwise fun a b => s.Better a.priceTicks b.priceTicks)
    (hmem : ∀ level, level ∈ levels ↔ level ∈ levels') : levels = levels' := by
  have hnodup : ∀ {levels : List PublicPriceLevel},
      (levels.Pairwise fun a b => s.Better a.priceTicks b.priceTicks) → levels.Nodup := by
    intro levels hsorted
    refine hsorted.imp ?_
    rintro level _ hbetter rfl
    exact irrefl _ hbetter
  have hperm := (List.perm_ext_iff_of_nodup (hnodup hsorted) (hnodup hsorted')).mpr hmem
  exact hperm.eq_of_pairwise (fun _ _ _ _ h h' => absurd h' (asymm h)) hsorted hsorted'

/-- The rebuilt levels of a side, one by one. -/
theorem Moment.mem_rebuiltLevels {m : Moment} {s : Side} {level : PublicPriceLevel} :
    level ∈ m.rebuiltLevels s ↔ (∃ queue, (level.priceTicks, queue) ∈ m.levels s ∧
      level.quantityLots = .ofInt (queueQuantity queue)) ∧ 0 < level.quantityLots := by
  unfold rebuiltLevels
  rw [List.mem_filter, List.mem_map, decide_eq_true_iff]
  refine and_congr_left fun _ => ?_
  constructor
  · rintro ⟨entry, hentry, rfl⟩
    exact ⟨entry.2, hentry, rfl⟩
  · rintro ⟨queue, hqueue, hquantity⟩
    exact ⟨(level.priceTicks, queue), hqueue, by rw [← hquantity]⟩

/-- The rebuilt levels keep the order of the levels. -/
theorem Moment.WellFormed.rebuiltLevels_sorted {m : Moment} (hwf : m.WellFormed) (s : Side) :
    (m.rebuiltLevels s).Pairwise fun a b => s.Better a.priceTicks b.priceTicks := by
  have hsorted : ((m.levels s).map fun level =>
      (⟨level.1, .ofInt (queueQuantity level.2)⟩ : PublicPriceLevel)).Pairwise
        fun a b => s.Better a.priceTicks b.priceTicks :=
    List.pairwise_map.mpr (hwf.sorted s)
  exact hsorted.filter _

/-- Where no level holds more than the largest `int64`, what is made of a moment shows what is
active in it. -/
theorem Moment.WellFormed.rebuiltBook_shows {m : Moment} (hwf : m.WellFormed)
    (hfit : QuantitiesFit m.activeOrders) : m.rebuiltBook.Shows m.activeOrders := by
  have hlevels : ∀ s, m.rebuiltBook.levels s = m.rebuiltLevels s := fun s => by cases s <;> rfl
  have hexact : ∀ s, ∀ level ∈ m.levels s, (Int64.ofInt (queueQuantity level.2)).toInt =
      activeQuantity m.activeOrders s level.1 := by
    intro s level hlevel
    have hlower := hwf.activeQuantity_nonneg s level.1
    have hupper := hfit s level.1
    rw [Int64.toInt_maxValue] at hupper
    rw [← hwf.activeQuantity_eq hlevel]
    exact Int64.toInt_ofInt_of_le (by omega) (by omega)
  refine ⟨fun s => ?_, fun s priceTicks => ?_, fun s level hlevel => ?_⟩
  · rw [hlevels]
    exact hwf.rebuiltLevels_sorted s
  · rw [hlevels]
    constructor
    · rintro ⟨level, hlevel, rfl⟩
      obtain ⟨⟨queue, hqueue, hquantity⟩, hpos⟩ := Moment.mem_rebuiltLevels.mp hlevel
      rw [FixedWidth.pos_iff, hquantity, hexact s _ hqueue] at hpos
      exact hpos
    · intro hpos
      obtain ⟨orderId, o, hlookup, hne⟩ := Finmap.exists_of_total_ne_zero hpos.ne'
      have hat : o.side = s.code ∧ o.priceTicks = priceTicks := by
        by_contra hat
        exact hne (if_neg hat)
      obtain ⟨level, hlevel, rfl⟩ := hwf.exists_level_iff.mpr ⟨orderId, o, hlookup, hat⟩
      refine ⟨⟨level.1, .ofInt (queueQuantity level.2)⟩,
        Moment.mem_rebuiltLevels.mpr ⟨⟨level.2, hlevel, rfl⟩, ?_⟩, rfl⟩
      rw [FixedWidth.pos_iff, hexact s level hlevel]
      exact hpos
  · rw [hlevels] at hlevel
    obtain ⟨⟨queue, hqueue, hquantity⟩, -⟩ := Moment.mem_rebuiltLevels.mp hlevel
    rw [hquantity]
    exact hexact s _ hqueue

section Shown

variable {history : List ExecutionEventRecordV1} {m : Moment} {p : MarketDataProjection}

/-- The projection has an order at a side and price exactly when the book has a level there. -/
theorem Follows.exists_level_iff (hp : Follows history m p) (hwf : m.WellFormed) (s : Side)
    (priceTicks : Int64) :
    (∃ orderId o, p.activeOrders.lookup orderId = some o ∧ o.At s priceTicks) ↔
      ∃ level ∈ m.levels s, level.1 = priceTicks := by
  refine Iff.trans ?_ hwf.exists_level_iff.symm
  constructor
  · rintro ⟨orderId, projected, hlookup, hat⟩
    rw [hp.orders] at hlookup
    obtain ⟨o, ho, rfl⟩ := Option.map_eq_some_iff.mp hlookup
    exact ⟨orderId, o, ho, hat⟩
  · rintro ⟨orderId, o, hlookup, hat⟩
    exact ⟨orderId, o.projected, by rw [hp.orders, hlookup]; rfl, hat⟩

/-- The sum of `rebuild_book` for a price is what the queue of its level holds. -/
theorem Follows.find?_sums_iff (hp : Follows history m p) (hwf : m.WellFormed)
    (order : IterationOrder) {s : Side} {priceTicks quantityLots : Int64} :
    ((p.sums order).levels s).find? priceTicks = some quantityLots ↔
      ∃ queue, (priceTicks, queue) ∈ m.levels s ∧
        quantityLots = .ofInt (queueQuantity queue) := by
  have hsome := (p.isSome_find?_sums order s priceTicks).trans
    (hp.exists_level_iff hwf s priceTicks)
  have hsum : (((p.sums order).levels s).find? priceTicks).getD 0 =
      .ofInt (activeQuantity m.activeOrders s priceTicks) := by
    rw [p.getD_find?_sums]
    exact congrArg Int64.ofInt (Finmap.total_map (OrderState.visible s priceTicks) hp.orders)
  have hqueue : ∀ queue, (priceTicks, queue) ∈ m.levels s →
      activeQuantity m.activeOrders s priceTicks = queueQuantity queue :=
    fun queue hlevel => hwf.activeQuantity_eq hlevel
  constructor
  · intro hfind
    obtain ⟨⟨_, queue⟩, hlevel, rfl⟩ := hsome.mp (by rw [hfind]; rfl)
    rw [hfind, hqueue queue hlevel] at hsum
    exact ⟨queue, hlevel, hsum⟩
  · rintro ⟨queue, hlevel, rfl⟩
    obtain ⟨quantity, hfind⟩ := Option.isSome_iff_exists.mp (hsome.mpr ⟨_, hlevel, rfl⟩)
    rw [hfind, hqueue queue hlevel] at hsum
    exact hfind.trans (congrArg some hsum)

/-- A projection in step shows what is made of the moment. -/
theorem Follows.book_eq (hp : Follows history m p) (hcurrent : p.Current) (hwf : m.WellFormed) :
    p.book = m.rebuiltBook := by
  obtain ⟨-, order, hbook⟩ := hcurrent
  have hlevels : ∀ s, p.book.levels s = m.rebuiltLevels s := by
    intro s
    rw [hbook, MarketDataProjection.rebuildBook_levels]
    refine eq_of_sorted (publicLevels_sorted _) (hwf.rebuiltLevels_sorted s) fun level => ?_
    rw [mem_publicLevels, Moment.mem_rebuiltLevels, hp.find?_sums_iff hwf]
  have hinstrument : p.book.instrumentId = m.rebuiltBook.instrumentId := by
    by_cases hsome : ∃ orderId, orderId ∈ m.activeOrders
    · obtain ⟨orderId, hmem⟩ := hsome
      have hcount : m.activeOrders.keys.card ≠ 0 :=
        Finset.card_ne_zero_of_mem (Finmap.mem_keys.mpr hmem)
      have hbound : m.instrumentId = some p.book.instrumentId := hp.instrument orderId hmem
      unfold Moment.rebuiltBook
      rw [if_neg hcount, hbound, Option.getD_some]
    · have hnone : ∀ orderId, orderId ∉ m.activeOrders := not_exists.mp hsome
      have hcount : m.activeOrders.keys.card = 0 :=
        Finset.card_eq_zero.mpr (Finset.eq_empty_of_forall_notMem fun orderId h =>
          hnone orderId (Finmap.mem_keys.mp h))
      have hvisit : order.visit p.activeOrders = [] := by
        refine List.eq_nil_iff_forall_not_mem.mpr fun entry hentry => ?_
        have hlookup := (order.mem_iff _ entry.1 entry.2).mp hentry
        have hnotFound : m.activeOrders.lookup entry.1 = none :=
          Finmap.lookup_eq_none.mpr (hnone entry.1)
        rw [hp.orders, hnotFound] at hlookup
        cases hlookup
      unfold Moment.rebuiltBook
      rw [if_pos hcount, hbook]
      unfold MarketDataProjection.rebuildBook
      rw [hvisit]
      rfl
  have hparts : p.book = ⟨p.book.instrumentId, p.book.levels .buy, p.book.levels .sell⟩ := rfl
  rw [hparts, hinstrument, hlevels, hlevels]
  rfl

end Shown

/-! ## What it refuses -/

/-- The message about an order that cannot be shown. -/
def invalidOrderState : String := "invalid order state for market data projection"

/-- The `switch` lets an announced order rest. -/
theorem MarketDataProjection.applyByType_of_rests (p : MarketDataProjection)
    (order : IterationOrder) {event : ExecutionEventRecordV1} {orderId : UInt64}
    (h : event.Rests orderId) : p.applyByType order event = p.applyRested order event := by
  unfold applyByType
  rcases h.1 with htype | htype
  · rw [htype, decodeExecutionEventType_code]
  · rw [htype, decodeExecutionEventType_code]

/-- A projection in step refuses an order with id zero with this message, and stays as it is. -/
theorem EmissionStep.apply_of_rests_zero {history : List ExecutionEventRecordV1} {m m' : Moment}
    {e : Emission} (hstep : EmissionStep m e m') (hwf : m.WellFormed) {p : MarketDataProjection}
    (hp : Follows history m p) (order : IterationOrder) (hzero : e.event.Rests 0) :
    p.apply order e.event = (rejected invalidOrderState, p) := by
  have hrefused := (hstep.apply_follows hwf hp order).1.mpr hzero
  obtain ⟨hsequence, -⟩ := hstep.eventSequence
  obtain ⟨hresult, -⟩ := MarketDataProjection.apply_of_next order
    (hsequence.trans hp.next.symm)
  refine Prod.ext ?_ (p.apply_rejected order e.event hrefused)
  rw [hresult, p.applyByType_of_rests order hzero]
  cases hstep with
  | reject command reason hidle =>
    exact absurd hzero (not_rests_of_eventType .orderRejected rfl (by decide) 0)
  | cancel hidle hactive hside =>
    exact absurd hzero (not_rests_of_eventType .orderCancelled rfl (by decide) 0)
  | accept hidle hside hprice hquantity hnew hinstrument =>
    exact absurd hzero (not_rests_of_eventType .orderAccepted rfl (by decide) 0)
  | trade hincoming hside hremaining hlevels hcross =>
    exact absurd hzero (not_rests_of_eventType .tradeExecuted rfl (by decide) 0)
  | fill hincoming =>
    exact absurd hzero (not_rests_of_eventType .orderFullyFilled rfl (by decide) 0)
  | @rest command remaining s hincoming hside hremaining hcross =>
    have hok := hwf.incoming _ hincoming
    have hrested := p.applyRested_eq order (emitRestEvent m.counters command remaining).1 hside
      (hok.pos_of_ne_zero hremaining) hok.price
    have hid : (emitRestEvent m.counters command remaining).1.orderId = 0 := hzero.2
    rw [if_pos hid] at hrested
    exact congrArg Prod.fst hrested

/-- What a projection makes of the first order with id zero: it has accepted everything before
it and refuses it. -/
def RefusesZero (orders : ℕ → IterationOrder) (es : List Emission) : Prop :=
  ∀ before e after, es = before ++ e :: after → (∀ earlier ∈ before, ¬ earlier.event.Rests 0) →
    e.event.Rests 0 →
      let fed := MarketDataProjection.feed orders (before.map Emission.event)
      (∀ result ∈ fed.1, result.status ≠ .rejected) ∧
        fed.2.apply (orders before.length) e.event = (rejected invalidOrderState, fed.2)

/-- One more emission. -/
theorem EmissionStep.refusesZero {orders : ℕ → IterationOrder} {es : List Emission} {m m' : Moment}
    {e : Emission} (hstep : EmissionStep m e m') (hwf : m.WellFormed) (hfed : Fed orders es m)
    (h : RefusesZero orders es) : RefusesZero orders (es ++ [e]) := by
  intro before e' after heq hnone hzero
  rcases List.eq_nil_or_concat after with rfl | ⟨after, last, rfl⟩
  · obtain ⟨rfl, hlast⟩ := List.append_inj' heq rfl
    obtain rfl := (List.cons.inj hlast).1
    have haccepted := hfed.accepted.mpr hnone
    exact ⟨haccepted, hstep.apply_of_rests_zero hwf (hfed.follows haccepted) _ hzero⟩
  · have hshorter : es ++ [e] = (before ++ e' :: after) ++ [last] := by simpa using heq
    obtain ⟨hes, -⟩ := List.append_inj' hshorter rfl
    exact h before e' after hes hnone hzero

/-- At every moment of a run the first order with id zero has been refused. -/
theorem EmissionSteps.refusesZero {es : List Emission} {m : Moment}
    (hsteps : EmissionSteps (OrderBook.create 1).moment es m) (orders : ℕ → IterationOrder) :
    RefusesZero orders es := by
  refine (hsteps.preserves
    (P := fun es m => (m.WellFormed ∧ Fed orders es m) ∧ RefusesZero orders es)
    (fun hstep h => ⟨⟨hstep.wellFormed h.1.1, hstep.fed h.1.1 h.1.2⟩,
      hstep.refusesZero h.1.1 h.1.2 h.2⟩) []
    ⟨⟨OrderBook.wellFormed_create 1, fed_create orders⟩, fun before e after heq => ?_⟩).2
  exact absurd heq.symm (by simp)

/-- The number of the next event counts the events. -/
theorem EmissionSteps.nextEventSequence {es : List Emission} {m m' : Moment}
    (hsteps : EmissionSteps m es m') :
    m'.counters.nextEventSequence = m.counters.nextEventSequence + .ofNat es.length := by
  induction hsteps with
  | nil => exact (UInt64.add_zero _).symm
  | cons hfirst _ ih =>
    rw [ih, hfirst.eventSequence.2, List.length_cons, FixedWidth.succ_add_ofNat]

end MatchingEngine
