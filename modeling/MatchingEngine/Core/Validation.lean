import MatchingEngine.Core.CommandSteps
import MatchingEngine.Library.DistinctKeys

/-!
# What the validator decides

`OrderBook.validateInvariants` walks over the queues with a set of the ids seen
so far. Here its answer is characterised by a property of the book that does not
mention the walk, and well-formed books are shown to have that property.

A stronger property says that index and queues describe the same orders in all their
fields. The walk does not establish it, because the id stored in an index record is
compared with nothing.
-/

namespace MatchingEngine

/-- The index lists the order under its id, with all fields except the id equal.
The validator does not look at the id stored in the index entry. -/
def OrderBook.Lists (book : OrderBook) (o : RestingOrder) : Prop :=
  ∃ a, book.activeOrders.lookup o.orderId = some a ∧ { a with orderId := o.orderId } = o

/-- What the validator establishes. -/
structure OrderBook.Consistent (book : OrderBook) : Prop where
  /-- Every level is nonempty, has a positive price and holds proper orders. -/
  level : ∀ s, ∀ level ∈ book.levels s, LevelOk s level
  /-- Every queued order is listed by the index. -/
  listed : ∀ s, ∀ o ∈ queued (book.levels s), book.Lists o
  /-- No id is queued twice. -/
  nodup : ((queued (book.levels .buy) ++ queued (book.levels .sell)).map RestingOrder.orderId).Nodup
  /-- Every indexed id is queued. -/
  isQueued : ∀ orderId ∈ book.activeOrders,
    ∃ o ∈ queued (book.levels .buy) ++ queued (book.levels .sell), o.orderId = orderId
  /-- Every indexed order has something left to trade. -/
  remaining : ∀ orderId ∈ book.activeOrders, 0 < book.remainingQuantity orderId
  /-- The best prices do not meet. -/
  uncrossed : ∀ bid ∈ (book.levels .buy).head?, ∀ ask ∈ (book.levels .sell).head?, bid.1 < ask.1

/-- The validator accepts an order exactly when it is proper, listed and new,
and then remembers its id. -/
theorem OrderBook.validateRestingOrder_eq_some_iff (book : OrderBook) (o : RestingOrder)
    (priceTicks : Int64) (s : Side) (ids ids' : Finset UInt64) :
    book.validateRestingOrderAgainstActiveIndex o priceTicks s ids = some ids' ↔
      OrderOk s priceTicks o ∧ book.Lists o ∧ Collects RestingOrder.orderId ids ids' [o] := by
  unfold validateRestingOrderAgainstActiveIndex
  rw [Collects.singleton_iff]
  constructor
  · intro h
    split at h
    · cases h
    · rename_i hchecks
      simp only [not_or, ne_eq, not_not, not_le] at hchecks
      obtain ⟨hside, hprice, hremaining, hnew⟩ := hchecks
      cases hfind : book.activeOrders.lookup o.orderId with
      | none =>
        rw [hfind] at h
        cases h
      | some a =>
        rw [hfind] at h
        simp only at h
        split at h
        · rename_i hfields
          obtain ⟨hclient, hinstrument, hsideEq, hpriceEq, hremainingEq⟩ := hfields
          refine ⟨⟨decodeSide_eq_some_iff.mp hside, hprice, hremaining⟩, ⟨a, hfind, ?_⟩, hnew,
            (Option.some.inj h).symm⟩
          cases a
          cases o
          simp_all
        · cases h
  · rintro ⟨⟨hside, hprice, hremaining⟩, ⟨a, hfind, hfields⟩, hnew, rfl⟩
    rw [if_neg]
    · have hagree : a.clientId = o.clientId ∧ a.instrumentId = o.instrumentId ∧ a.side = o.side ∧
          a.priceTicks = o.priceTicks ∧ a.remainingQuantityLots = o.remainingQuantityLots := by
        rw [← hfields]
        exact ⟨rfl, rfl, rfl, rfl, rfl⟩
      simp only [hfind, if_pos hagree]
    · simp only [not_or, ne_eq, not_not, not_le]
      exact ⟨decodeSide_eq_some_iff.mpr hside, hprice, hremaining, hnew⟩

/-- The validator accepts a queue exactly when its orders are proper and listed
and their ids are new and distinct. -/
theorem OrderBook.validateQueue_eq_some_iff (book : OrderBook) (priceTicks : Int64) (s : Side)
    (queue : List RestingOrder) (ids ids' : Finset UInt64) :
    book.validateQueue priceTicks s queue ids = some ids' ↔
      (∀ o ∈ queue, OrderOk s priceTicks o ∧ book.Lists o) ∧
        Collects RestingOrder.orderId ids ids' queue := by
  induction queue generalizing ids with
  | nil => simp [validateQueue, Collects.nil_iff, eq_comm]
  | cons o rest ih =>
    rw [← List.singleton_append, Collects.append_iff, List.singleton_append, List.forall_mem_cons]
    simp only [validateQueue, Option.bind_eq_some_iff, validateRestingOrder_eq_some_iff, ih]
    constructor
    · rintro ⟨between, ⟨hok, hlists, hfirst⟩, hrest, hcollects⟩
      exact ⟨⟨⟨hok, hlists⟩, hrest⟩, between, hfirst, hcollects⟩
    · rintro ⟨⟨⟨hok, hlists⟩, hrest⟩, between, hfirst, hcollects⟩
      exact ⟨between, ⟨hok, hlists, hfirst⟩, hrest, hcollects⟩

/-- The validator accepts the levels of a side exactly when they are proper and
their orders are listed under new and distinct ids. -/
theorem OrderBook.validatePriceLevels_eq_some_iff (book : OrderBook) (s : Side)
    (levels : List PriceLevel) (ids ids' : Finset UInt64) :
    book.validatePriceLevelsAgainstActiveOrders s levels ids = some ids' ↔
      (∀ level ∈ levels, LevelOk s level) ∧ (∀ o ∈ queued levels, book.Lists o) ∧
        Collects RestingOrder.orderId ids ids' (queued levels) := by
  induction levels generalizing ids with
  | nil => simp [validatePriceLevelsAgainstActiveOrders, Collects.nil_iff, eq_comm]
  | cons level levels ih =>
    obtain ⟨price, queue⟩ := level
    rw [queued_cons, Collects.append_iff, List.forall_mem_append, List.forall_mem_cons]
    simp only [validatePriceLevelsAgainstActiveOrders]
    constructor
    · intro h
      split at h
      · cases h
      · rename_i hchecks
        simp only [not_or, List.isEmpty_iff, not_le] at hchecks
        simp only [Option.bind_eq_some_iff, validateQueue_eq_some_iff, ih] at h
        obtain ⟨between, ⟨hqueue, hfirst⟩, hlevels, hlists, hrest⟩ := h
        exact ⟨⟨⟨hchecks.1, hchecks.2, fun o ho => (hqueue o ho).1⟩, hlevels⟩,
          ⟨fun o ho => (hqueue o ho).2, hlists⟩, between, hfirst, hrest⟩
    · rintro ⟨⟨hbest, hworse⟩, ⟨hbestLists, hlists⟩, between, hfirst, hrest⟩
      rw [if_neg]
      · simp only [Option.bind_eq_some_iff, validateQueue_eq_some_iff, ih]
        exact ⟨between, ⟨fun o ho => ⟨hbest.order o ho, hbestLists o ho⟩, hfirst⟩, hworse,
          hlists, hrest⟩
      · simp only [not_or, List.isEmpty_iff, not_le]
        exact ⟨hbest.nonempty, hbest.price⟩

/-- The validator goes through both sides exactly when all levels are proper and all orders
are listed under distinct ids. -/
theorem OrderBook.validateSides_eq_some_iff (book : OrderBook) (ids : Finset UInt64) :
    (book.validatePriceLevelsAgainstActiveOrders .buy book.bids.entries ∅).bind
        (book.validatePriceLevelsAgainstActiveOrders .sell book.asks.entries) = some ids ↔
      (∀ s, ∀ level ∈ book.levels s, LevelOk s level) ∧
        (∀ s, ∀ o ∈ queued (book.levels s), book.Lists o) ∧
        Collects RestingOrder.orderId ∅ ids
          (queued (book.levels .buy) ++ queued (book.levels .sell)) := by
  rw [Collects.append_iff]
  simp only [Option.bind_eq_some_iff, validatePriceLevels_eq_some_iff]
  constructor
  · rintro ⟨between, ⟨hbids, hbidsListed, hfirst⟩, hasks, hasksListed, hrest⟩
    refine ⟨fun s => ?_, fun s => ?_, between, hfirst, hrest⟩
    · cases s
      · exact hbids
      · exact hasks
    · cases s
      · exact hbidsListed
      · exact hasksListed
  · rintro ⟨hlevel, hlisted, between, hfirst, hrest⟩
    exact ⟨between, ⟨hlevel .buy, hlisted .buy, hfirst⟩, hlevel .sell, hlisted .sell, hrest⟩

/-- Two sets of one size of which the second contains the first are equal, so
the last loop of the validator compares the queued ids with the indexed ones. -/
theorem OrderBook.validateActiveOrdersAreQueued_iff (book : OrderBook) (ids : Finset UInt64) :
    book.validateActiveOrdersAreQueued ids = true ↔
      book.activeOrders.keys = ids ∧
        ∀ orderId ∈ book.activeOrders, 0 < book.remainingQuantity orderId := by
  unfold validateActiveOrdersAreQueued
  constructor
  · intro h
    split at h
    · cases h
    · rename_i hcard
      have hall : ∀ k ∈ book.activeOrders.keys, ¬ (k ∉ ids ∨ book.remainingQuantity k ≤ 0) :=
        fun k hk => Finset.filter_eq_empty_iff.mp (of_decide_eq_true h) hk
      refine ⟨Finset.eq_of_subset_of_card_le (fun k hk => ?_) (not_not.mp hcard).le,
        fun k hk => ?_⟩
      · exact not_not.mp fun hnot => hall k hk (.inl hnot)
      · exact not_le.mp fun hnot => hall k (Finmap.mem_keys.mpr hk) (.inr hnot)
  · rintro ⟨rfl, hremaining⟩
    rw [if_neg (not_not.mpr rfl), decide_eq_true_iff, Finset.filter_eq_empty_iff]
    intro k hk hrefused
    rcases hrefused with hnot | hnot
    · exact hnot hk
    · exact not_le.mpr (hremaining k (Finmap.mem_keys.mp hk)) hnot

/-- The final comparison looks at the heads of the two price maps. -/
theorem OrderBook.sidesAreUncrossed_iff (book : OrderBook) :
    book.sidesAreUncrossed = true ↔
      ∀ bid ∈ (book.levels .buy).head?, ∀ ask ∈ (book.levels .sell).head?, bid.1 < ask.1 := by
  unfold sidesAreUncrossed bestBidPrice bestAskPrice levels
  cases book.bids.entries <;> cases book.asks.entries <;> simp

/-- The validator answers `true` exactly for the consistent books. -/
theorem OrderBook.validateInvariants_iff (book : OrderBook) :
    book.validateInvariants = true ↔ book.Consistent := by
  have hids : ∀ k, k ∈ ((queued (book.levels .buy) ++ queued (book.levels .sell)).map
      RestingOrder.orderId).toFinset ↔
      ∃ o ∈ queued (book.levels .buy) ++ queued (book.levels .sell), o.orderId = k := by
    intro k
    rw [List.mem_toFinset, List.mem_map]
  unfold validateInvariants
  constructor
  · intro h
    cases hbind : (book.validatePriceLevelsAgainstActiveOrders .buy book.bids.entries ∅).bind
        (book.validatePriceLevelsAgainstActiveOrders .sell book.asks.entries) with
    | none =>
      rw [hbind] at h
      cases h
    | some ids =>
      rw [hbind] at h
      simp only [Bool.and_eq_true, validateActiveOrdersAreQueued_iff, sidesAreUncrossed_iff] at h
      obtain ⟨⟨hkeys, hremaining⟩, huncrossed⟩ := h
      obtain ⟨hlevel, hlisted, hcollects⟩ := (book.validateSides_eq_some_iff ids).mp hbind
      obtain ⟨hnodup, rfl⟩ := Collects.empty_iff.mp hcollects
      refine ⟨hlevel, hlisted, hnodup, fun k hk => ?_, hremaining, huncrossed⟩
      rw [← hids, ← hkeys]
      exact Finmap.mem_keys.mpr hk
  · rintro ⟨hlevel, hlisted, hnodup, hqueued, hremaining, huncrossed⟩
    rw [(book.validateSides_eq_some_iff _).mpr
      ⟨hlevel, hlisted, Collects.empty_iff.mpr ⟨hnodup, rfl⟩⟩]
    simp only [Bool.and_eq_true, validateActiveOrdersAreQueued_iff, sidesAreUncrossed_iff]
    refine ⟨⟨?_, hremaining⟩, huncrossed⟩
    ext k
    rw [hids, Finmap.mem_keys]
    refine ⟨hqueued k, ?_⟩
    rintro ⟨o, ho, rfl⟩
    rcases List.mem_append.mp ho with ho | ho
    all_goals
      obtain ⟨a, hfind, _⟩ := hlisted _ o ho
      exact Finmap.mem_iff.mpr ⟨a, hfind⟩

/-- A well-formed book passes the validator. -/
theorem OrderBook.consistent_of_wellFormed {book : OrderBook} (hbook : book.moment.WellFormed) :
    book.Consistent where
  level := hbook.level
  listed s o ho := ⟨o, hbook.lookup_of_queued ho, rfl⟩
  nodup := (hbook.indexed .buy).nodup
  isQueued k hk := (hbook.indexed .buy).mem_iff.mp hk
  remaining k hk := by
    obtain ⟨o, hlookup⟩ := Finmap.mem_iff.mp hk
    have hremaining : book.remainingQuantity k = o.remainingQuantityLots := by
      unfold remainingQuantity
      rw [hlookup]
    obtain ⟨_, _, _, _, hok⟩ := hbook.queued_of_lookup hlookup
    rw [hremaining]
    exact hok.remaining
  uncrossed bid hbid ask hask :=
    hbook.uncrossed .buy bid (List.mem_of_head? hbid) ask (List.mem_of_head? hask)

/-! ## Index and queues describe the same orders -/

/-- All queued orders of both sides. -/
def OrderBook.allQueued (book : OrderBook) : List RestingOrder :=
  queued (book.levels .buy) ++ queued (book.levels .sell)

/-- Index and queues describe the same orders, where `same` compares the record of the
index with the queued order. -/
structure OrderBook.Describes (same : RestingOrder → RestingOrder → Prop)
    (book : OrderBook) : Prop where
  /-- Every level is nonempty, has a positive price and holds orders of its side and
  price with something left to trade. -/
  level : ∀ s, ∀ level ∈ book.levels s, LevelOk s level
  /-- No id is queued twice across both sides. -/
  nodup : (book.allQueued.map RestingOrder.orderId).Nodup
  /-- The index has a record for every queued order. -/
  record : ∀ o ∈ book.allQueued, ∃ a, book.activeOrders.lookup o.orderId = some a ∧ same a o
  /-- The index has no other ids. -/
  isQueued : ∀ orderId ∈ book.activeOrders, ∃ o ∈ book.allQueued, o.orderId = orderId
  /-- The best prices do not meet. -/
  uncrossed : ∀ bid ∈ (book.levels .buy).head?, ∀ ask ∈ (book.levels .sell).head?, bid.1 < ask.1

/-- Two orders agree in all fields but the id. -/
def RestingOrder.SameButId (a o : RestingOrder) : Prop := { a with orderId := o.orderId } = o

/-- A queued order is queued on its side. -/
theorem OrderBook.mem_allQueued {book : OrderBook} {o : RestingOrder} :
    o ∈ book.allQueued ↔ ∃ s, o ∈ queued (book.levels s) := by
  unfold allQueued
  rw [List.mem_append]
  constructor
  · rintro (ho | ho)
    · exact ⟨.buy, ho⟩
    · exact ⟨.sell, ho⟩
  · rintro ⟨s, ho⟩
    cases s
    · exact .inl ho
    · exact .inr ho

/-- The validator establishes everything about the index records but the ids in them. -/
theorem OrderBook.consistent_iff_describes (book : OrderBook) :
    book.Consistent ↔ book.Describes RestingOrder.SameButId := by
  constructor
  · rintro ⟨hlevel, hlisted, hnodup, hqueued, -, huncrossed⟩
    refine ⟨hlevel, hnodup, fun o ho => ?_, hqueued, huncrossed⟩
    obtain ⟨s, ho⟩ := mem_allQueued.mp ho
    exact hlisted s o ho
  · rintro ⟨hlevel, hnodup, hrecord, hqueued, huncrossed⟩
    refine ⟨hlevel, fun s o ho => hrecord o (mem_allQueued.mpr ⟨s, ho⟩), hnodup, hqueued,
      fun k hk => ?_, huncrossed⟩
    obtain ⟨o, ho, rfl⟩ := hqueued k hk
    obtain ⟨a, hlookup, hsame⟩ := hrecord o ho
    obtain ⟨s, ho⟩ := mem_allQueued.mp ho
    obtain ⟨level, hlevelMem, ho⟩ := mem_queued.mp ho
    have hremaining : book.remainingQuantity o.orderId = o.remainingQuantityLots := by
      unfold remainingQuantity
      rw [hlookup, ← hsame]
    rw [hremaining]
    exact ((hlevel s level hlevelMem).order o ho).remaining

/-- Equal records agree in particular in all fields but the id. -/
theorem OrderBook.Describes.sameButId {book : OrderBook} (h : book.Describes Eq) :
    book.Describes RestingOrder.SameButId where
  level := h.level
  nodup := h.nodup
  record o ho := by
    obtain ⟨a, hlookup, rfl⟩ := h.record o ho
    exact ⟨a, hlookup, rfl⟩
  isQueued := h.isQueued
  uncrossed := h.uncrossed

/-- Records that carry the id under which they are stored are equal to the queued orders
as soon as they agree with them in the other fields. -/
theorem OrderBook.Describes.eq_of_keyed {book : OrderBook}
    (h : book.Describes RestingOrder.SameButId)
    (hkeyed : ∀ k a, book.activeOrders.lookup k = some a → a.orderId = k) :
    book.Describes Eq where
  level := h.level
  nodup := h.nodup
  record o ho := by
    obtain ⟨a, hlookup, hsame⟩ := h.record o ho
    refine ⟨a, hlookup, ?_⟩
    rw [← hsame, ← hkeyed _ a hlookup]
  isQueued := h.isQueued
  uncrossed := h.uncrossed

/-- When index and queues describe the same orders, every index record carries the id
under which it is stored. -/
theorem OrderBook.Describes.keyed {book : OrderBook} (h : book.Describes Eq) {k : UInt64}
    {a : RestingOrder} (hlookup : book.activeOrders.lookup k = some a) : a.orderId = k := by
  obtain ⟨o, ho, rfl⟩ := h.isQueued k (Finmap.mem_iff.mpr ⟨a, hlookup⟩)
  obtain ⟨a', hlookup', rfl⟩ := h.record o ho
  rw [Option.some.inj (hlookup.symm.trans hlookup')]

/-- The answer of the validator is exact for a book unless the book is right up to the ids
in its index records and one of these ids is not the one under which it is stored. -/
theorem OrderBook.validateInvariants_exact_iff (book : OrderBook) :
    (book.validateInvariants = true ↔ book.Describes Eq) ↔
      (book.Describes RestingOrder.SameButId →
        ∀ k a, book.activeOrders.lookup k = some a → a.orderId = k) := by
  rw [validateInvariants_iff, consistent_iff_describes]
  constructor
  · intro hexact hdescribes k a hlookup
    exact (hexact.mp hdescribes).keyed hlookup
  · intro hkeyed
    exact ⟨fun hdescribes => hdescribes.eq_of_keyed (hkeyed hdescribes), Describes.sameButId⟩

/-- A book with one bid under id 1, whose index record carries id 2. -/
def OrderBook.misfiled : OrderBook where
  instrumentId := some 7
  counters := {}
  bids := ⟨[(10, [⟨1, 5, 7, 1, 10, 3⟩])], List.pairwise_singleton _ _⟩
  asks := .empty
  activeOrders := Finmap.singleton 1 ⟨2, 5, 7, 1, 10, 3⟩

/-- The validator accepts the book, although its index and its queue name different orders. -/
theorem OrderBook.misfiled_accepted :
    misfiled.validateInvariants = true ∧ ¬ misfiled.Describes Eq := by
  refine ⟨by decide, fun h => ?_⟩
  have hkeyed : (2 : UInt64) = 1 := h.keyed (Finmap.lookup_singleton_eq)
  exact absurd hkeyed (by decide)

/-- In a well-formed book index and queues describe the same orders. -/
theorem OrderBook.describes_of_wellFormed {book : OrderBook} (hbook : book.moment.WellFormed) :
    book.Describes Eq where
  level := hbook.level
  nodup := (hbook.indexed .buy).nodup
  record o ho := by
    obtain ⟨s, ho⟩ := mem_allQueued.mp ho
    exact ⟨o, hbook.lookup_of_queued ho, rfl⟩
  isQueued := (consistent_of_wellFormed hbook).isQueued
  uncrossed := (consistent_of_wellFormed hbook).uncrossed

end MatchingEngine
