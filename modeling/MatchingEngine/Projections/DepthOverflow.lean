import MatchingEngine.Core.ActiveQuantity
import MatchingEngine.Projections.Aggregate
import MatchingEngine.Projections.Refinement

/-!
# Overflow in the public depth

The engine bounds the quantity of every single order, and `rebuild_book` adds the orders of
a price up in `int64`. Its additions stay in range exactly as long as the active quantity of
every side and price does, and only an order that comes to rest makes such a quantity larger.
-/

namespace MatchingEngine

/-- The sum of the two numbers is neither negative nor larger than the largest `int64`. -/
def SumInRange (sum : Int64 × Int64) : Prop :=
  0 ≤ sum.1.toInt + sum.2.toInt ∧ sum.1.toInt + sum.2.toInt ≤ Int64.maxValue.toInt

instance (sum : Int64 × Int64) : Decidable (SumInRange sum) :=
  inferInstanceAs (Decidable (_ ∧ _))

/-- The sum of a side and price so far. -/
def BookSums.sum (sums : BookSums) (s : Side) (priceTicks : Int64) : Int64 :=
  ((sums.levels s).find? priceTicks).getD 0

/-- The addition of one iteration of the first loop of `rebuild_book`. -/
def BookSums.addition (sums : BookSums) (o : OrderState) : Option (Int64 × Int64) :=
  (decodeSide o.side).map fun s => (sums.sum s o.priceTicks, o.remainingQuantityLots)

/-- The additions of the first loop of `rebuild_book`, in their order. -/
def BookSums.additions : BookSums → List (UInt64 × OrderState) → List (Int64 × Int64)
  | _, [] => []
  | sums, entry :: entries =>
      (sums.addition entry.2).toList ++ (sums.add entry).additions entries

namespace MarketDataProjection

/-- The additions of `rebuild_book`. -/
def rebuildAdditions (p : MarketDataProjection) (order : IterationOrder) : List (Int64 × Int64) :=
  BookSums.additions ⟨0, OrderedMap.empty, OrderedMap.empty⟩ (order.visit p.activeOrders)

/-- The additions made while an event is applied. The handlers call `rebuild_book` as the
last thing before they report an event as applied, and not otherwise. -/
def applyAdditions (p : MarketDataProjection) (order : IterationOrder)
    (event : ExecutionEventRecordV1) : List (Int64 × Int64) :=
  if (p.apply order event).1.status = .applied then
    (p.apply order event).2.rebuildAdditions order
  else []

/-- The projection as a machine that shows the additions it makes. -/
def additionMachine :
    Machine MarketDataProjection (IterationOrder × ExecutionEventRecordV1) (Int64 × Int64) where
  step p input := (p.applyAdditions input.1 input.2, (p.apply input.1 input.2).2)

/-- The additions made while a fresh projection is fed. -/
def feedAdditions (orders : ℕ → IterationOrder) (events : List ExecutionEventRecordV1) :
    List (Int64 × Int64) :=
  (additionMachine.run {} (events.zipIdx.map fun entry => (orders entry.2, entry.1))).1

end MarketDataProjection

/-! ## When the additions of a rebuild stay in range -/

/-- An addition that stays in range adds exactly what its order shows. -/
theorem BookSums.toInt_sum_add {sums : BookSums} {entry : UInt64 × OrderState}
    (hnonneg : ∀ s priceTicks, 0 ≤ (sums.sum s priceTicks).toInt)
    (hremaining : 0 < entry.2.remainingQuantityLots)
    (hrange : ∀ addition ∈ sums.addition entry.2, SumInRange addition) (s : Side)
    (priceTicks : Int64) :
    ((sums.add entry).sum s priceTicks).toInt =
      (sums.sum s priceTicks).toInt + entry.2.visible s priceTicks := by
  unfold sum OrderState.visible
  rw [find?_add]
  by_cases hat : entry.2.At s priceTicks
  · rw [if_pos hat, if_pos hat, Option.getD_some]
    have haddition : sums.addition entry.2 =
        some (sums.sum s priceTicks, entry.2.remainingQuantityLots) := by
      unfold addition
      rw [decodeSide_eq_some_iff.mpr hat.1, Option.map_some, hat.2]
    have hsum := hrange _ haddition
    exact FixedWidth.toInt_add_of_le (hnonneg s priceTicks) (FixedWidth.pos_iff.mp hremaining).le
      hsum.2
  · rw [if_neg hat, if_neg hat, add_zero]

/-- The quantities that orders with something left show are not negative. -/
theorem OrderState.visible_nonneg {o : OrderState} (h : 0 < o.remainingQuantityLots) (s : Side)
    (priceTicks : Int64) : 0 ≤ o.visible s priceTicks := by
  unfold visible
  split
  · exact (FixedWidth.pos_iff.mp h).le
  · exact le_rfl

/-- The additions of the loop stay in range exactly when the sums at its end do. -/
theorem BookSums.additions_inRange_iff {entries : List (UInt64 × OrderState)}
    (hentries : ∀ entry ∈ entries, entry.2.Proper entry.1) {sums : BookSums}
    (hnonneg : ∀ s priceTicks, 0 ≤ (sums.sum s priceTicks).toInt) :
    (∀ addition ∈ sums.additions entries, SumInRange addition) ↔
      ∀ s priceTicks, (sums.sum s priceTicks).toInt +
        (entries.map fun entry => entry.2.visible s priceTicks).sum ≤ Int64.maxValue.toInt := by
  induction entries generalizing sums with
  | nil =>
    refine iff_of_true (fun _ h => absurd h List.not_mem_nil) fun s priceTicks => ?_
    rw [List.map_nil, List.sum_nil, add_zero]
    exact Int64.toInt_le _
  | cons entry entries ih =>
    obtain ⟨hentry, hrest⟩ := List.forall_mem_cons.mp hentries
    have hothers : ∀ s priceTicks,
        0 ≤ (entries.map fun entry => entry.2.visible s priceTicks).sum := by
      intro s priceTicks
      refine List.sum_nonneg fun quantity hquantity => ?_
      obtain ⟨other, hother, rfl⟩ := List.mem_map.mp hquantity
      exact OrderState.visible_nonneg (hrest other hother).remaining s priceTicks
    simp only [additions, List.forall_mem_append, Option.mem_toList, List.map_cons, List.sum_cons,
      ← add_assoc]
    by_cases hrange : ∀ addition ∈ sums.addition entry.2, SumInRange addition
    · have hsum := toInt_sum_add hnonneg hentry.remaining hrange
      have hnonneg' : ∀ s priceTicks, 0 ≤ ((sums.add entry).sum s priceTicks).toInt := by
        intro s priceTicks
        rw [hsum]
        exact add_nonneg (hnonneg s priceTicks)
          (OrderState.visible_nonneg hentry.remaining s priceTicks)
      refine (and_iff_right hrange).trans ((ih hrest hnonneg').trans ?_)
      simp only [hsum]
    · -- a sum that is too large stays too large
      refine iff_of_false (fun h => hrange h.1) fun h => hrange ?_
      intro addition haddition
      obtain ⟨s, hside, rfl⟩ := Option.map_eq_some_iff.mp haddition
      have hvisible : entry.2.visible s entry.2.priceTicks =
          entry.2.remainingQuantityLots.toInt :=
        if_pos ⟨decodeSide_eq_some_iff.mp hside, rfl⟩
      have hfits := h s entry.2.priceTicks
      have hrestNonneg := hothers s entry.2.priceTicks
      rw [hvisible] at hfits
      refine ⟨add_nonneg (hnonneg s _) (FixedWidth.pos_iff.mp hentry.remaining).le, ?_⟩
      exact (le_add_of_nonneg_right hrestNonneg).trans hfits

namespace MarketDataProjection

variable {p : MarketDataProjection} (order : IterationOrder)

/-- No sum of visible quantities exceeds the largest `int64`. -/
def Bounded (p : MarketDataProjection) : Prop :=
  ∀ s priceTicks, visibleQuantity p.activeOrders s priceTicks ≤ Int64.maxValue.toInt

/-- The additions of a rebuild stay in range exactly when the quantities to be shown do. -/
theorem rebuildAdditions_inRange_iff (hp : p.Proper) :
    (∀ addition ∈ p.rebuildAdditions order, SumInRange addition) ↔ p.Bounded := by
  have hstart : ∀ s priceTicks,
      (BookSums.sum ⟨0, OrderedMap.empty, OrderedMap.empty⟩ s priceTicks).toInt = 0 := by
    intro s priceTicks
    cases s <;> exact Int64.toInt_zero
  have hvisited : ∀ entry ∈ order.visit p.activeOrders, entry.2.Proper entry.1 :=
    fun entry hentry => hp entry.1 entry.2 ((order.mem_iff _ _ _).mp hentry)
  unfold rebuildAdditions
  rw [BookSums.additions_inRange_iff hvisited fun s priceTicks => (hstart s priceTicks).ge]
  simp only [hstart, zero_add, Bounded, visibleQuantity,
    Finmap.total_eq_sum (order.nodup p.activeOrders) (order.mem_iff p.activeOrders)]

/-- The additions made while an event is applied say whether the orders are bounded then. -/
theorem applyAdditions_inRange_iff (hp : p.Current) (event : ExecutionEventRecordV1) :
    (∀ addition ∈ p.applyAdditions order event, SumInRange addition) ↔
      ((p.apply order event).1.status = .applied → (p.apply order event).2.Bounded) := by
  unfold applyAdditions
  by_cases happlied : (p.apply order event).1.status = .applied
  · rw [if_pos happlied, rebuildAdditions_inRange_iff order (hp.apply order event).proper]
    exact ⟨fun h _ => h, fun h => h happlied⟩
  · rw [if_neg happlied]
    exact iff_of_true (fun _ h => absurd h List.not_mem_nil) fun h => absurd h happlied

/-- An event that is not applied leaves the orders alone. -/
theorem apply_activeOrders_of_ne (event : ExecutionEventRecordV1)
    (h : (p.apply order event).1.status ≠ .applied) :
    (p.apply order event).2.activeOrders = p.activeOrders := by
  cases hstatus : (p.apply order event).1.status with
  | rejected => rw [p.apply_rejected order event hstatus]
  | ignored => rw [p.apply_ignored order event hstatus]
  | applied => exact absurd hstatus h

/-- If the additions of a run stay in range, the orders at its end are bounded. -/
theorem bounded_of_additions_inRange (hp : p.Current) (hbounded : p.Bounded)
    (inputs : List (IterationOrder × ExecutionEventRecordV1))
    (hrange : ∀ addition ∈ (additionMachine.run p inputs).1, SumInRange addition) :
    (additionMachine.run p inputs).2.Current ∧ (additionMachine.run p inputs).2.Bounded := by
  induction inputs generalizing p with
  | nil => exact ⟨hp, hbounded⟩
  | cons input inputs ih =>
    obtain ⟨order, event⟩ := input
    rw [additionMachine.run_cons] at hrange ⊢
    obtain ⟨hfirst, hrest⟩ := List.forall_mem_append.mp hrange
    refine ih (hp.apply order event) ?_ hrest
    by_cases happlied : (p.apply order event).1.status = .applied
    · exact (applyAdditions_inRange_iff order hp event).mp hfirst happlied
    · change (p.apply order event).2.Bounded
      unfold Bounded
      rwa [apply_activeOrders_of_ne order event happlied]

/-- Showing the additions does not change the projection. -/
theorem additionMachine_run (p : MarketDataProjection)
    (inputs : List (IterationOrder × ExecutionEventRecordV1)) :
    (additionMachine.run p inputs).2 = (projectionMachine.run p inputs).2 := by
  induction inputs generalizing p with
  | nil => rfl
  | cons input inputs ih => exact ih _

end MarketDataProjection

/-- A level that is shown has a positive quantity, the one to be shown up to overflow. -/
theorem MarketDataProjection.Current.quantity_eq {p : MarketDataProjection} (hp : p.Current)
    {s : Side} {level : PublicPriceLevel} (hlevel : level ∈ p.book.levels s) :
    level.quantityLots = .ofInt (visibleQuantity p.activeOrders s level.priceTicks) ∧
      0 < level.quantityLots := by
  obtain ⟨-, order, hbook⟩ := hp
  rw [hbook, rebuildBook_levels] at hlevel
  obtain ⟨hfind, hpos⟩ := mem_publicLevels.mp hlevel
  have hsum := p.getD_find?_sums order s level.priceTicks
  rw [hfind, Option.getD_some] at hsum
  exact ⟨hsum, hpos⟩

/-! ## What the book shows of the engine -/

/-- The book shows what the active orders hold: each side lists the prices at which something
is active, best price first, with the quantity that is. -/
structure PublicBookView.Shows (book : PublicBookView) (orders : ActiveOrders) : Prop where
  sorted : ∀ s, (book.levels s).Pairwise fun a b => s.Better a.priceTicks b.priceTicks
  prices : ∀ s priceTicks, (∃ level ∈ book.levels s, level.priceTicks = priceTicks) ↔
    0 < activeQuantity orders s priceTicks
  quantity : ∀ s, ∀ level ∈ book.levels s,
    level.quantityLots.toInt = activeQuantity orders s level.priceTicks

/-- What a book shows depends on the active quantities only. -/
theorem PublicBookView.Shows.congr {book : PublicBookView} {orders orders' : ActiveOrders}
    (h : book.Shows orders) (hsame : ∀ s priceTicks,
      activeQuantity orders' s priceTicks = activeQuantity orders s priceTicks) :
    book.Shows orders' where
  sorted := h.sorted
  prices s priceTicks := by rw [h.prices, hsame]
  quantity s level hlevel := by rw [h.quantity s level hlevel, hsame]

/-- A book that shows two states of the engine shows no difference between them. -/
theorem PublicBookView.Shows.le {book : PublicBookView} {orders orders' : ActiveOrders}
    (h : book.Shows orders) (h' : book.Shows orders') {s : Side} {priceTicks : Int64}
    (hnonneg : 0 ≤ activeQuantity orders s priceTicks) :
    activeQuantity orders' s priceTicks ≤ activeQuantity orders s priceTicks := by
  by_cases hpos : 0 < activeQuantity orders' s priceTicks
  · obtain ⟨level, hlevel, rfl⟩ := (h'.prices s priceTicks).mpr hpos
    rw [← h.quantity s level hlevel, ← h'.quantity s level hlevel]
  · exact (not_lt.mp hpos).trans hnonneg

/-- Something is visible at a side and price exactly if an order is. -/
theorem visibleQuantity_pos_iff {orders : ProjectedOrders}
    (hpos : ∀ orderId o, orders.lookup orderId = some o → 0 < o.remainingQuantityLots)
    {s : Side} {priceTicks : Int64} :
    0 < visibleQuantity orders s priceTicks ↔
      ∃ orderId o, orders.lookup orderId = some o ∧ o.At s priceTicks := by
  constructor
  · intro hvisible
    obtain ⟨orderId, o, hlookup, hne⟩ := Finmap.exists_of_total_ne_zero hvisible.ne'
    refine ⟨orderId, o, hlookup, ?_⟩
    by_contra hat
    exact hne (if_neg hat)
  · rintro ⟨orderId, o, hlookup, hat⟩
    exact visibleQuantity_pos hpos hlookup hat

/-- The quantities of a well-formed moment are not negative. -/
theorem Moment.WellFormed.activeQuantity_nonneg {m : Moment} (hwf : m.WellFormed) (s : Side)
    (priceTicks : Int64) : 0 ≤ activeQuantity m.activeOrders s priceTicks := by
  change Finmap.total (RestingOrder.quantityAt s priceTicks) (∅ : ActiveOrders) ≤ _
  refine Finmap.total_le_total fun orderId => ?_
  cases hlookup : m.activeOrders.lookup orderId with
  | none => exact le_rfl
  | some o =>
    have ho := (hwf.offer_pos hlookup).le
    change 0 ≤ o.quantityAt s priceTicks
    unfold RestingOrder.quantityAt
    split
    · exact ho
    · exact le_rfl

/-- An emission that rests an order makes a quantity larger. -/
theorem EmissionStep.activeQuantity_lt {m m' : Moment} {e : Emission} (hstep : EmissionStep m e m')
    (hwf : m.WellFormed) {orderId : UInt64} (hrests : e.event.Rests orderId) :
    ∃ s priceTicks, activeQuantity m.activeOrders s priceTicks <
      activeQuantity m'.activeOrders s priceTicks := by
  cases hstep with
  | reject => exact absurd hrests (not_rests_of_eventType .orderRejected rfl (by decide) orderId)
  | cancel => exact absurd hrests (not_rests_of_eventType .orderCancelled rfl (by decide) orderId)
  | accept => exact absurd hrests (not_rests_of_eventType .orderAccepted rfl (by decide) orderId)
  | trade => exact absurd hrests (not_rests_of_eventType .tradeExecuted rfl (by decide) orderId)
  | fill => exact absurd hrests (not_rests_of_eventType .orderFullyFilled rfl (by decide) orderId)
  | @rest command remaining s hincoming hside hremaining hcross =>
    have hok := hwf.incoming _ hincoming
    have hpos : 0 < remaining.toInt := FixedWidth.pos_iff.mp (hok.pos_of_ne_zero hremaining)
    have hown : (restingOrderOf command remaining).quantityAt s command.priceTicks =
        remaining.toInt := if_pos ⟨decodeSide_eq_some_iff.mp hside, rfl⟩
    have hadded : activeQuantity (m.afterRest command s remaining).activeOrders s
        command.priceTicks = (restingOrderOf command remaining).quantityAt s command.priceTicks +
          activeQuantity m.activeOrders s command.priceTicks :=
      Finmap.total_insert_of_notMem hok.new
    refine ⟨s, command.priceTicks, ?_⟩
    rw [hadded, hown]
    omega

/-- The quantities at an emission are those of the moment behind it: an order that a trade has
used up and that is still in the index counts for nothing. -/
theorem EmissionStep.activeQuantity_eq {m m' : Moment} {e : Emission} (hstep : EmissionStep m e m')
    (s : Side) (priceTicks : Int64) :
    activeQuantity e.activeOrders s priceTicks = activeQuantity m'.activeOrders s priceTicks := by
  cases hstep with
  | reject | cancel | accept | fill | rest => rfl
  | @trade command remaining t best o rest worse hincoming hside hremaining hlevels hcross =>
    change activeQuantity (fillFront command best o (m.vars remaining)).vars.activeOrders
      s priceTicks = activeQuantity
        (varsAfterFill (fillFront command best o (m.vars remaining))).activeOrders s priceTicks
    generalize hfill : fillFront command best o (m.vars remaining) = fill
    have hindexed : fill.vars.activeOrders.lookup fill.restingOrder.orderId =
        some fill.restingOrder := by
      rw [← hfill]
      exact Finmap.lookup_insert _
    unfold varsAfterFill
    split
    · rename_i hzero
      have hnothing : fill.restingOrder.quantityAt s priceTicks = 0 := by
        unfold RestingOrder.quantityAt RestingOrder.offer
        rw [hzero, Int64.toInt_zero, ite_self]
      have htotal := Finmap.total_of_lookup (f := RestingOrder.quantityAt s priceTicks) hindexed
      rwa [hnothing, zero_add] at htotal
    · rfl

section Shown

variable {orders : ℕ → IterationOrder} {es : List Emission} {m : Moment}

/-- The visible quantities of a projection in step are the active ones. -/
theorem Follows.visibleQuantity_eq {history : List ExecutionEventRecordV1}
    {p : MarketDataProjection} (hp : Follows history m p) (s : Side) (priceTicks : Int64) :
    visibleQuantity p.activeOrders s priceTicks = activeQuantity m.activeOrders s priceTicks :=
  Finmap.total_map (OrderState.visible s priceTicks) hp.orders

/-- A projection in step is bounded exactly when the active orders fit. -/
theorem Follows.bounded_iff {history : List ExecutionEventRecordV1}
    {p : MarketDataProjection} (hp : Follows history m p) :
    p.Bounded ↔ QuantitiesFit m.activeOrders := by
  unfold MarketDataProjection.Bounded QuantitiesFit
  simp only [hp.visibleQuantity_eq]

/-- A projection in step shows the active quantities if they fit. -/
theorem Follows.shows {history : List ExecutionEventRecordV1} {p : MarketDataProjection}
    (hp : Follows history m p) (hcurrent : p.Current) (hfit : QuantitiesFit m.activeOrders) :
    p.book.Shows m.activeOrders := by
  obtain ⟨hproper, order, hbook⟩ := hcurrent
  have hremaining : ∀ orderId o, p.activeOrders.lookup orderId = some o →
      0 < o.remainingQuantityLots := fun orderId o h => (hproper orderId o h).remaining
  have haggregates := p.rebuildBook_aggregates order hremaining (hp.bounded_iff.mpr hfit)
  rw [← hbook] at haggregates
  refine ⟨haggregates.sorted, fun s priceTicks => ?_, fun s level hlevel => ?_⟩
  · rw [haggregates.prices, ← visibleQuantity_pos_iff hremaining, hp.visibleQuantity_eq]
  · rw [haggregates.quantity s level hlevel, hp.visibleQuantity_eq]

end Shown

/-! ## Runs of the engine -/

/-- No command overfills its side and price. -/
def StaysInRange (commands : List OrderCommandRecordV1) : Prop :=
  ∀ earlier command later, commands = earlier ++ command :: later →
    ¬ ((InstrumentEngine.create 1).applyAll earlier).2.orderBook.CommandOverfills command

/-- Every addition of `rebuild_book` stays in range, and after every event the book shows what
is active in the engine when the event is emitted. -/
structure DepthExact (orders : ℕ → IterationOrder) (commands : List OrderCommandRecordV1) :
    Prop where
  inRange : ∀ addition ∈ MarketDataProjection.feedAdditions orders
    ((InstrumentEngine.create 1).applyAll commands).1, SumInRange addition
  shows : ∀ earlier e later,
    (InstrumentEngine.create 1).emissionsAll commands = earlier ++ e :: later →
      (MarketDataProjection.feed orders
        ((earlier ++ [e]).map Emission.event)).2.book.Shows e.activeOrders

/-- One more event shows its additions behind those before it. -/
theorem MarketDataProjection.feedAdditions_concat (orders : ℕ → IterationOrder)
    (events : List ExecutionEventRecordV1) (event : ExecutionEventRecordV1) :
    feedAdditions orders (events ++ [event]) = feedAdditions orders events ++
      (feed orders events).2.applyAdditions (orders events.length) event := by
  unfold feedAdditions feed
  rw [List.zipIdx_append, List.map_append, ← additionMachine_run]
  simp only [Nat.zero_add, List.zipIdx_cons, List.zipIdx_nil, List.map_cons, List.map_nil]
  rw [Machine.run_concat]
  rfl

/-- The events before a point show no other additions. -/
theorem MarketDataProjection.feedAdditions_subset (orders : ℕ → IterationOrder)
    (shown rest : List ExecutionEventRecordV1) :
    feedAdditions orders shown ⊆ feedAdditions orders (shown ++ rest) := by
  unfold feedAdditions
  rw [List.zipIdx_append, List.map_append, additionMachine.run_append]
  exact List.subset_append_left _ _

/-- A fresh projection is bounded. -/
theorem MarketDataProjection.bounded_fresh : Bounded {} := fun _ _ =>
  Int64.toInt_zero.symm.le.trans (Int64.le_iff_toInt_le.mp (by decide))

/-- If the additions stay in range, a projection that was fed events is bounded. -/
theorem MarketDataProjection.feed_bounded {orders : ℕ → IterationOrder}
    {events : List ExecutionEventRecordV1}
    (hrange : ∀ addition ∈ feedAdditions orders events, SumInRange addition) :
    (feed orders events).2.Bounded := by
  obtain ⟨-, hbounded⟩ := bounded_of_additions_inRange current_fresh bounded_fresh _ hrange
  rwa [additionMachine_run] at hbounded

/-- The active orders of a fresh book fit. -/
theorem quantitiesFit_create : QuantitiesFit (OrderBook.create 1).moment.activeOrders :=
  fun _ _ => Int64.toInt_zero.symm.le.trans (Int64.le_iff_toInt_le.mp (by decide))

/-- As long as the commands stay in range, the active orders fit whenever an order comes to
rest, and at the end. -/
theorem StaysInRange.fits {commands : List OrderCommandRecordV1} (hrange : StaysInRange commands) :
    (∀ e ∈ (InstrumentEngine.create 1).emissionsAll commands, ∀ orderId,
        e.event.Rests orderId → QuantitiesFit e.activeOrders) ∧
      QuantitiesFit ((InstrumentEngine.create 1).applyAll commands).2.orderBook.activeOrders := by
  induction commands using List.reverseRecOn with
  | nil => exact ⟨List.forall_mem_nil _, quantitiesFit_create⟩
  | append_singleton commands command ih =>
    have hearlier : StaysInRange commands := by
      rintro earlier first later rfl
      exact hrange earlier first (later ++ [command]) (List.append_assoc _ _ _)
    obtain ⟨hemissions, hfit⟩ := ih hearlier
    have hwf := (InstrumentEngine.reachable_applyAll 1 commands).wellFormed
    have hlast := (OrderBook.emissions_fit_iff hwf hfit command).mpr
      (hrange commands command [] rfl)
    have hsteps := OrderBook.dispatch_steps hwf command
    rw [InstrumentEngine.emissionsAll_concat, InstrumentEngine.applyAll_concat]
    exact ⟨List.forall_mem_append.mpr ⟨hemissions, hlast⟩, hsteps.quantitiesFit hwf hfit hlast⟩

section Runs

variable {orders : ℕ → IterationOrder} {es : List Emission} {m : Moment}

/-- The last of the emissions that lead to a moment is a step to it. -/
theorem EmissionSteps.last {m₀ : Moment} {e : Emission} (hsteps : EmissionSteps m₀ (es ++ [e]) m) :
    ∃ before, EmissionSteps m₀ es before ∧ EmissionStep before e m := by
  obtain ⟨before, hbefore, hlast⟩ := hsteps.of_append
  cases hlast with
  | cons hstep hnil =>
    cases hnil
    exact ⟨before, hbefore, hstep⟩

/-- If what comes to rest fits and has no id zero, every addition stays in range. -/
theorem EmissionSteps.additions_inRange (hsteps : EmissionSteps (OrderBook.create 1).moment es m)
    (hzero : ∀ e ∈ es, ¬ e.event.Rests 0)
    (hfits : ∀ e ∈ es, ∀ orderId, e.event.Rests orderId → QuantitiesFit e.activeOrders) :
    ∀ addition ∈ MarketDataProjection.feedAdditions orders (es.map Emission.event),
      SumInRange addition := by
  induction es using List.reverseRecOn generalizing m with
  | nil => exact List.forall_mem_nil _
  | append_singleton es e ih =>
    obtain ⟨before, hbefore, hstep⟩ := hsteps.last
    obtain ⟨hzeroBefore, hzeroLast⟩ := List.forall_mem_append.mp hzero
    obtain ⟨hfitsBefore, -⟩ := List.forall_mem_append.mp hfits
    obtain ⟨hwf, hfed⟩ := hbefore.fed orders
    have hfollows := hfed.follows (hfed.accepted.mpr hzeroBefore)
    have hfit := hsteps.quantitiesFit (OrderBook.wellFormed_create 1) quantitiesFit_create hfits
    obtain ⟨hrefuses, hkeeps⟩ :=
      hstep.apply_follows hwf hfollows (orders (es.map Emission.event).length)
    have haccepted := not_congr hrefuses |>.mpr (hzeroLast e (List.mem_singleton_self e))
    rw [List.map_append, List.map_singleton, MarketDataProjection.feedAdditions_concat]
    refine List.forall_mem_append.mpr ⟨ih hbefore hzeroBefore hfitsBefore, ?_⟩
    rw [MarketDataProjection.applyAdditions_inRange_iff _
      (MarketDataProjection.feed_current _ _)]
    exact fun _ => (hkeeps haccepted).bounded_iff.mpr hfit

/-- If the additions stay in range and nothing with id zero rests, the active orders fit. -/
theorem EmissionSteps.quantitiesFit_of_inRange
    (hsteps : EmissionSteps (OrderBook.create 1).moment es m)
    (hzero : ∀ e ∈ es, ¬ e.event.Rests 0)
    (hrange : ∀ addition ∈ MarketDataProjection.feedAdditions orders (es.map Emission.event),
      SumInRange addition) : QuantitiesFit m.activeOrders := by
  obtain ⟨-, hfed⟩ := hsteps.fed orders
  exact (hfed.follows (hfed.accepted.mpr hzero)).bounded_iff.mp
    (MarketDataProjection.feed_bounded hrange)

/-- The projection shows the moment that a run has reached if the active orders fit. -/
theorem EmissionSteps.shows (hsteps : EmissionSteps (OrderBook.create 1).moment es m)
    (hzero : ∀ e ∈ es, ¬ e.event.Rests 0) (hfit : QuantitiesFit m.activeOrders) :
    (MarketDataProjection.feed orders (es.map Emission.event)).2.book.Shows m.activeOrders := by
  obtain ⟨-, hfed⟩ := hsteps.fed orders
  exact (hfed.follows (hfed.accepted.mpr hzero)).shows (MarketDataProjection.feed_current _ _) hfit

/-- The projection refuses the first order with id zero, and its book stays behind. -/
theorem EmissionStep.not_shows_of_rests_zero {m' : Moment} {e : Emission}
    (hsteps : EmissionSteps (OrderBook.create 1).moment es m) (hstep : EmissionStep m e m')
    (hzero : ∀ e ∈ es, ¬ e.event.Rests 0) (hfit : QuantitiesFit m.activeOrders)
    (hrests : e.event.Rests 0) :
    ¬ (MarketDataProjection.feed orders
      ((es ++ [e]).map Emission.event)).2.book.Shows e.activeOrders := by
  obtain ⟨hwf, hfed⟩ := hsteps.fed orders
  have hfollows := hfed.follows (hfed.accepted.mpr hzero)
  have hrefused := (hstep.apply_follows hwf hfollows (orders (es.map Emission.event).length)).1.mpr
    hrests
  rw [List.map_append, List.map_singleton, MarketDataProjection.feed_concat]
  dsimp only
  rw [MarketDataProjection.apply_rejected _ _ _ hrefused]
  intro hshows
  obtain ⟨s, priceTicks, hlt⟩ := hstep.activeQuantity_lt hwf hrests
  have hle := (hsteps.shows hzero hfit).le (hshows.congr fun t price =>
    (hstep.activeQuantity_eq t price).symm) (hwf.activeQuantity_nonneg s priceTicks)
  exact absurd hle (not_le.mpr hlt)

end Runs

namespace DepthExact

variable {orders : ℕ → IterationOrder} {commands : List OrderCommandRecordV1}

/-- What an exact run adds up on the way. -/
theorem inRange_of_append (h : DepthExact orders commands) {es later : List Emission}
    (heq : (InstrumentEngine.create 1).emissionsAll commands = es ++ later) :
    ∀ addition ∈ MarketDataProjection.feedAdditions orders (es.map Emission.event),
      SumInRange addition := by
  intro addition haddition
  refine h.inRange addition ?_
  rw [← InstrumentEngine.emissionsAll_events, heq, List.map_append]
  exact MarketDataProjection.feedAdditions_subset _ _ _ haddition

/-- An exact run rests no order with id zero. -/
theorem not_rests_zero (h : DepthExact orders commands) {es later : List Emission}
    (heq : (InstrumentEngine.create 1).emissionsAll commands = es ++ later) :
    ∀ e ∈ es, ¬ e.event.Rests 0 := by
  induction es using List.reverseRecOn generalizing later with
  | nil => exact List.forall_mem_nil _
  | append_singleton es e ih =>
    rw [List.append_assoc, List.singleton_append] at heq
    have hnone := ih heq
    refine List.forall_mem_append.mpr ⟨hnone, List.forall_mem_singleton.mpr fun hrests => ?_⟩
    have hrun := InstrumentEngine.steps_applyAll 1 commands
    rw [heq] at hrun
    obtain ⟨m, hbefore, hrest⟩ := hrun.of_append
    cases hrest with
    | cons hstep hrest =>
      have hfit := hbefore.quantitiesFit_of_inRange hnone (h.inRange_of_append heq)
      exact hstep.not_shows_of_rests_zero hbefore hnone hfit hrests (h.shows es e later heq)

/-- At every moment of an exact run the active orders fit. -/
theorem quantitiesFit (h : DepthExact orders commands) {es later : List Emission}
    (heq : (InstrumentEngine.create 1).emissionsAll commands = es ++ later) {m : Moment}
    (hsteps : EmissionSteps (OrderBook.create 1).moment es m) : QuantitiesFit m.activeOrders :=
  hsteps.quantitiesFit_of_inRange (h.not_rests_zero heq) (h.inRange_of_append heq)

/-- An exact run stays in range. -/
theorem staysInRange (h : DepthExact orders commands) : StaysInRange commands := by
  rintro earlier command later rfl
  have hwf := (InstrumentEngine.reachable_applyAll 1 earlier).wellFormed
  have hrun := InstrumentEngine.steps_applyAll 1 earlier
  obtain ⟨rest, hsplit⟩ : ∃ rest, (InstrumentEngine.create 1).emissionsAll
      (earlier ++ command :: later) = (InstrumentEngine.create 1).emissionsAll earlier ++
        (((InstrumentEngine.create 1).applyAll earlier).2.orderBook.emissions command ++ rest) := by
    refine ⟨(emissionMachine.run (emissionMachine.run (InstrumentEngine.create 1)
      (earlier ++ [command])).2 later).1, ?_⟩
    rw [← List.append_assoc, ← InstrumentEngine.emissionsAll_concat, List.append_cons]
    exact congrArg Prod.fst (emissionMachine.run_append _ _ _)
  have hfit : QuantitiesFit
      ((InstrumentEngine.create 1).applyAll earlier).2.orderBook.activeOrders :=
    h.quantitiesFit hsplit hrun
  refine (OrderBook.emissions_fit_iff hwf hfit command).mp fun e he orderId hrests => ?_
  obtain ⟨before, after, hemissions⟩ := List.append_of_mem he
  have hcommand := hrun.append (OrderBook.dispatch_steps hwf command)
  rw [hemissions, ← List.append_assoc, List.append_cons] at hcommand
  obtain ⟨m, hbefore, -⟩ := hcommand.of_append
  obtain ⟨_, -, hstep⟩ := hbefore.last
  have hplace : (InstrumentEngine.create 1).emissionsAll (earlier ++ command :: later) =
      (InstrumentEngine.create 1).emissionsAll earlier ++ before ++ [e] ++ (after ++ rest) := by
    rw [hsplit, hemissions]
    simp only [List.append_assoc, List.cons_append, List.nil_append]
  intro s priceTicks
  rw [hstep.activeQuantity_eq]
  exact h.quantitiesFit hplace hbefore s priceTicks

end DepthExact

/-- The additions of `rebuild_book` stay in range and the book shows every level as it is,
exactly if no command rests an order with id zero, which the projection refuses, and none
overfills its side and price. -/
theorem depth_additions_in_range_iff (orders : ℕ → IterationOrder)
    (commands : List OrderCommandRecordV1) :
    DepthExact orders commands ↔ NeverRestsZero 1 commands ∧ StaysInRange commands := by
  have hrun := InstrumentEngine.steps_applyAll 1 commands
  constructor
  · intro h
    refine ⟨?_, h.staysInRange⟩
    rw [← emissionsAll_not_rests_zero_iff]
    exact h.not_rests_zero (List.append_nil _).symm
  · rintro ⟨hnever, hrange⟩
    obtain ⟨hfits, -⟩ := hrange.fits
    rw [← emissionsAll_not_rests_zero_iff] at hnever
    refine ⟨?_, fun earlier e later heq => ?_⟩
    · rw [← InstrumentEngine.emissionsAll_events]
      exact hrun.additions_inRange hnever hfits
    · rw [List.append_cons] at heq
      rw [heq] at hrun hnever hfits
      obtain ⟨m, hbefore, -⟩ := hrun.of_append
      obtain ⟨hnever, -⟩ := List.forall_mem_append.mp hnever
      obtain ⟨hfits, -⟩ := List.forall_mem_append.mp hfits
      have hfit := hbefore.quantitiesFit (OrderBook.wellFormed_create 1) quantitiesFit_create hfits
      obtain ⟨_, -, hstep⟩ := hbefore.last
      exact (hbefore.shows hnever hfit).congr hstep.activeQuantity_eq

/-- Two buy orders of the same price that fit together. -/
theorem depth_additions_in_range_iff_fitting :
    DepthExact (fun _ => .byId)
      [{ orderId := 1, instrumentId := 7, priceTicks := 10, quantityLots := 9223372036854775800,
         commandType := 1, side := 1, timeInForce := 1 },
       { orderId := 2, instrumentId := 7, priceTicks := 10, quantityLots := 7,
         commandType := 1, side := 1, timeInForce := 1 }] := by
  refine (depth_additions_in_range_iff (fun _ => .byId) _).mpr ⟨?_, ?_⟩
  · rw [← emissionsAll_not_rests_zero_iff]
    decide
  · intro earlier command later heq hover
    match earlier, heq with
    | [], heq =>
      obtain ⟨rfl, -⟩ := List.cons.inj heq
      exact absurd hover.exceeds (by decide)
    | [_], heq =>
      obtain ⟨rfl, -⟩ := List.cons.inj (List.cons.inj heq).2
      obtain rfl := (List.cons.inj heq).1
      exact absurd hover.exceeds (by decide)
    | _ :: _ :: _, heq => simp at heq

/-- The sum of two buy orders of the same price, each as large as an order may be, overflows,
and the price is not shown. -/
theorem depth_additions_overflow :
    ¬ (∀ addition ∈ MarketDataProjection.feedAdditions (fun _ => .byId)
        ((InstrumentEngine.create 1).applyAll
          [{ orderId := 1, instrumentId := 7, priceTicks := 10, quantityLots := 9223372036854775807,
             commandType := 1, side := 1, timeInForce := 1 },
           { orderId := 2, instrumentId := 7, priceTicks := 10, quantityLots := 9223372036854775807,
             commandType := 1, side := 1, timeInForce := 1 }]).1, SumInRange addition) ∧
      ∀ level ∈ (MarketDataProjection.feed (fun _ => .byId)
        ((InstrumentEngine.create 1).applyAll
          [{ orderId := 1, instrumentId := 7, priceTicks := 10, quantityLots := 9223372036854775807,
             commandType := 1, side := 1, timeInForce := 1 },
           { orderId := 2, instrumentId := 7, priceTicks := 10, quantityLots := 9223372036854775807,
             commandType := 1, side := 1, timeInForce := 1 }]).1).2.book.levels .buy,
        level.priceTicks ≠ 10 := by
  constructor
  · intro h
    exact absurd (MarketDataProjection.feed_bounded h .buy 10) (by decide)
  · intro level hlevel hprice
    obtain ⟨hquantity, hpos⟩ := (MarketDataProjection.feed_current _ _).quantity_eq hlevel
    rw [hquantity, hprice] at hpos
    exact absurd hpos (by decide)

end MatchingEngine
