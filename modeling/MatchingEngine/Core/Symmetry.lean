import MatchingEngine.Core.CommandSteps

/-!
# What matching does not depend on

Matching compares prices of one side with each other, tells the two sides apart, asks of two
order ids or instrument ids whether they are the same, and copies everything else. A change of
names, sides, prices and event numbers that keeps these comparisons is therefore not noticed:
a changed command, given to a changed book, is answered with the changed events and leaves the
changed book behind.
-/

namespace MatchingEngine

/-! ## Names -/

/-- New names that keep different orders and different instruments apart. -/
structure Relabelling where
  orderId : UInt64 → UInt64
  instrumentId : UInt32 → UInt32
  clientId : UInt64 → UInt64
  commandSequence : UInt64 → UInt64
  sourceIngressEpoch : UInt64 → UInt64
  sourceIngressSequence : UInt64 → UInt64
  orderId_injective : Function.Injective orderId
  orderId_zero : orderId 0 = 0
  instrumentId_injective : Function.Injective instrumentId

namespace Relabelling

/-- The names stay as they are. -/
def same : Relabelling where
  orderId := id
  instrumentId := id
  clientId := id
  commandSequence := id
  sourceIngressEpoch := id
  sourceIngressSequence := id
  orderId_injective := Function.injective_id
  orderId_zero := rfl
  instrumentId_injective := Function.injective_id

variable (R : Relabelling)

/-- The command under the new names. -/
def command (command : OrderCommandRecordV1) : OrderCommandRecordV1 :=
  { command with
    commandSequence := R.commandSequence command.commandSequence
    sourceIngressEpoch := R.sourceIngressEpoch command.sourceIngressEpoch
    sourceIngressSequence := R.sourceIngressSequence command.sourceIngressSequence
    orderId := R.orderId command.orderId
    replacementOrderId := R.orderId command.replacementOrderId
    clientId := R.clientId command.clientId
    instrumentId := R.instrumentId command.instrumentId }

/-- The event under the new names. -/
def event (event : ExecutionEventRecordV1) : ExecutionEventRecordV1 :=
  { event with
    commandSequence := R.commandSequence event.commandSequence
    sourceIngressEpoch := R.sourceIngressEpoch event.sourceIngressEpoch
    sourceIngressSequence := R.sourceIngressSequence event.sourceIngressSequence
    orderId := R.orderId event.orderId
    contraOrderId := R.orderId event.contraOrderId
    instrumentId := R.instrumentId event.instrumentId }

/-- The order under the new names. -/
def order (o : RestingOrder) : RestingOrder :=
  { o with
    orderId := R.orderId o.orderId
    clientId := R.clientId o.clientId
    instrumentId := R.instrumentId o.instrumentId }

/-- The price level under the new names. -/
def level : PriceLevel → PriceLevel := Prod.map id (List.map R.order)

@[simp] theorem order_remainingQuantityLots (o : RestingOrder) :
    (R.order o).remainingQuantityLots = o.remainingQuantityLots := rfl

/-- No order takes the name zero, unless it had it. -/
theorem orderId_eq_zero_iff {orderId : UInt64} : R.orderId orderId = 0 ↔ orderId = 0 := by
  conv_lhs => rw [← R.orderId_zero]
  exact R.orderId_injective.eq_iff

end Relabelling

/-! ## Names, sides, prices and event numbers -/

/-- A change of names, sides, prices and event numbers that keeps the comparisons of the book. -/
structure Symmetry extends Relabelling where
  /-- The new side. -/
  side : Side → Side
  /-- The new number in the place of a side. -/
  sideNumber : UInt16 → UInt16
  /-- The new price. -/
  price : Int64 → Int64
  /-- The new event number. -/
  eventNumber : UInt64 → UInt64
  /-- The prices whose comparisons are kept. -/
  InRange : Int64 → Prop
  decodeSide_eq : ∀ n, decodeSide (sideNumber n) = (decodeSide n).map side
  side_opposite : ∀ s, side s.opposite = (side s).opposite
  better_iff : ∀ s {p q}, InRange p → InRange q →
    ((side s).Better (price p) (price q) ↔ s.Better p q)
  pos_iff : ∀ {p}, InRange p → (0 < price p ↔ 0 < p)
  eventNumber_succ : ∀ n, eventNumber (n + 1) = eventNumber n + 1

namespace Symmetry

/-- Nothing changes. -/
def same : Symmetry where
  toRelabelling := .same
  side := id
  sideNumber := id
  price := id
  eventNumber := id
  InRange _ := True
  decodeSide_eq _ := Option.map_id_apply.symm
  side_opposite _ := rfl
  better_iff _ _ _ _ _ := Iff.rfl
  pos_iff _ := Iff.rfl
  eventNumber_succ _ := rfl

variable (T : Symmetry)

/-- The changed command. -/
def command (command : OrderCommandRecordV1) : OrderCommandRecordV1 :=
  { T.toRelabelling.command command with
    side := T.sideNumber command.side
    priceTicks := T.price command.priceTicks }

/-- The changed event. -/
def event (event : ExecutionEventRecordV1) : ExecutionEventRecordV1 :=
  { T.toRelabelling.event event with
    eventSequence := T.eventNumber event.eventSequence
    side := T.sideNumber event.side
    priceTicks := T.price event.priceTicks }

/-- The changed order. -/
def order (o : RestingOrder) : RestingOrder :=
  { T.toRelabelling.order o with
    side := T.sideNumber o.side
    priceTicks := T.price o.priceTicks }

/-- The changed price level. -/
def level : PriceLevel → PriceLevel := Prod.map T.price (List.map T.order)

/-- The changed counters. -/
def counters (counters : EmissionCounters) : EmissionCounters :=
  { counters with nextEventSequence := T.eventNumber counters.nextEventSequence }

@[simp] theorem order_remainingQuantityLots (o : RestingOrder) :
    (T.order o).remainingQuantityLots = o.remainingQuantityLots := rfl

/-- The commands whose prices matter have prices whose comparisons are kept. -/
def Admits (command : OrderCommandRecordV1) : Prop :=
  decodeCommandType command.commandType = some .newOrder ∨
      decodeCommandType command.commandType = some .replaceOrder →
    T.InRange command.priceTicks

/-- The sides stay apart. -/
theorem side_injective : Function.Injective T.side := by
  intro s t heq
  rcases s.eq_or_eq_opposite t with rfl | rfl
  · rfl
  · rw [T.side_opposite] at heq
    exact absurd heq.symm (Side.opposite_ne _)

/-- Different prices stay different. -/
theorem price_eq_iff {p q : Int64} (hp : T.InRange p) (hq : T.InRange q) :
    T.price p = T.price q ↔ p = q := by
  refine ⟨fun heq => ?_, fun heq => heq ▸ rfl⟩
  have hnot : ¬ (T.side .buy).Better (T.price p) (T.price q) := heq ▸ irrefl _
  have hnot' : ¬ (T.side .buy).Better (T.price q) (T.price p) := heq ▸ irrefl _
  rw [T.better_iff .buy hp hq] at hnot
  rw [T.better_iff .buy hq hp] at hnot'
  exact le_antisymm (not_lt.mp hnot) (not_lt.mp hnot')

/-- No price becomes positive or stops being positive. -/
theorem price_le_zero_iff {p : Int64} (hp : T.InRange p) : T.price p ≤ 0 ↔ p ≤ 0 := by
  rw [← not_lt, ← not_lt]
  exact not_congr (T.pos_iff hp)

/-- The names of the sides change, and with them the map of the levels. -/
theorem update_side {α : Type} (f f' : Side → α) (g : α → α) (h : ∀ s, f' (T.side s) = g (f s))
    (s : Side) (a : α) (t : Side) :
    Function.update f' (T.side s) (g a) (T.side t) = g (Function.update f s a t) := by
  by_cases heq : t = s
  · rw [heq, Function.update_self, Function.update_self]
  · rw [Function.update_of_ne heq, Function.update_of_ne (T.side_injective.ne heq), h]

/-- The changed command names the new side. -/
theorem decodeSide_command (command : OrderCommandRecordV1) :
    decodeSide (T.command command).side = (decodeSide command.side).map T.side :=
  T.decodeSide_eq command.side

/-! ## Emitting events -/

variable (k : EmissionCounters) (c : OrderCommandRecordV1)

theorem emitOrderEvent_eq (eventType : ExecutionEventType) (quantity remaining : Int64) :
    emitOrderEvent (T.counters k) (T.command c) eventType quantity remaining =
      (T.event (emitOrderEvent k c eventType quantity remaining).1,
        T.counters (emitOrderEvent k c eventType quantity remaining).2) := by
  unfold emitOrderEvent counters event Relabelling.event
  dsimp only
  rw [T.eventNumber_succ, T.orderId_zero]
  rfl

theorem emitTradeEvent_eq (o : RestingOrder) (priceTicks quantity remaining : Int64) :
    emitTradeEvent (T.counters k) (T.command c) (T.order o) (T.price priceTicks) quantity
        remaining =
      (T.event (emitTradeEvent k c o priceTicks quantity remaining).1,
        T.counters (emitTradeEvent k c o priceTicks quantity remaining).2) := by
  unfold emitTradeEvent
  rw [T.emitOrderEvent_eq]
  rfl

theorem emitRejectionEvent_eq (reason : RejectionReason) :
    emitRejectionEvent (T.counters k) (T.command c) reason =
      (T.event (emitRejectionEvent k c reason).1,
        T.counters (emitRejectionEvent k c reason).2) := by
  unfold emitRejectionEvent
  rw [T.emitOrderEvent_eq]
  rfl

theorem emitCancelEvent_eq (o : RestingOrder) :
    emitCancelEvent (T.counters k) (T.command c) (T.order o) =
      (T.event (emitCancelEvent k c o).1, T.counters (emitCancelEvent k c o).2) := by
  unfold emitCancelEvent
  rw [order_remainingQuantityLots, T.emitOrderEvent_eq]
  rfl

theorem emitRestEvent_eq (remaining : Int64) :
    emitRestEvent (T.counters k) (T.command c) remaining =
      (T.event (emitRestEvent k c remaining).1, T.counters (emitRestEvent k c remaining).2) :=
  T.emitOrderEvent_eq k c _ _ _

/-! ## The matching loops -/

/-- The second index has the changed orders. -/
def Index (activeOrders activeOrders' : ActiveOrders) : Prop :=
  ∀ orderId, activeOrders'.lookup (T.orderId orderId) = (activeOrders.lookup orderId).map T.order

variable {T} {k c}

theorem Index.insert {activeOrders activeOrders' : ActiveOrders}
    (h : T.Index activeOrders activeOrders') (orderId : UInt64) (o : RestingOrder) :
    T.Index (activeOrders.insert orderId o)
      (activeOrders'.insert (T.orderId orderId) (T.order o)) := by
  intro id
  by_cases heq : id = orderId
  · rw [heq, Finmap.lookup_insert, Finmap.lookup_insert, Option.map_some]
  · rw [Finmap.lookup_insert_of_ne _ heq,
      Finmap.lookup_insert_of_ne _ (T.orderId_injective.ne heq), h]

theorem Index.erase {activeOrders activeOrders' : ActiveOrders}
    (h : T.Index activeOrders activeOrders') (orderId : UInt64) :
    T.Index (activeOrders.erase orderId) (activeOrders'.erase (T.orderId orderId)) := by
  intro id
  by_cases heq : id = orderId
  · rw [heq, Finmap.lookup_erase, Finmap.lookup_erase, Option.map_none]
  · rw [Finmap.lookup_erase_ne heq, Finmap.lookup_erase_ne (T.orderId_injective.ne heq), h]

theorem Index.mem_iff {activeOrders activeOrders' : ActiveOrders}
    (h : T.Index activeOrders activeOrders') (orderId : UInt64) :
    T.orderId orderId ∈ activeOrders' ↔ orderId ∈ activeOrders := by
  rw [Finmap.mem_iff, Finmap.mem_iff, ← Option.isSome_iff_exists, ← Option.isSome_iff_exists, h,
    Option.isSome_map]

/-- The second loop variables are the changed ones. -/
structure Vars (T : Symmetry) (vars vars' : MatchVars) : Prop where
  incomingRemaining : vars'.incomingRemaining = vars.incomingRemaining
  index : T.Index vars.activeOrders vars'.activeOrders
  counters : vars'.counters = T.counters vars.counters

/-- The second result of a loop is the changed one. -/
structure Matched (T : Symmetry) {α : Type} (change : α → α) (result result' : MatchResult α) :
    Prop where
  left : result'.left = change result.left
  vars : T.Vars result.vars result'.vars
  events : result'.events = result.events.map T.event

variable {vars vars' : MatchVars}

/-- One iteration of the inner loop. -/
theorem fillFront_eq (hvars : T.Vars vars vars') (priceTicks : Int64) (o : RestingOrder) :
    (fillFront (T.command c) (T.price priceTicks) (T.order o) vars').restingOrder =
        T.order (fillFront c priceTicks o vars).restingOrder ∧
      T.Vars (fillFront c priceTicks o vars).vars
        (fillFront (T.command c) (T.price priceTicks) (T.order o) vars').vars ∧
      (fillFront (T.command c) (T.price priceTicks) (T.order o) vars').event =
        T.event (fillFront c priceTicks o vars).event := by
  obtain ⟨remaining', activeOrders', counters'⟩ := vars'
  obtain ⟨rfl, hindex, rfl⟩ := hvars
  have hemitted := T.emitTradeEvent_eq vars.counters c
    { o with remainingQuantityLots :=
        o.remainingQuantityLots - min vars.incomingRemaining o.remainingQuantityLots }
    priceTicks (min vars.incomingRemaining o.remainingQuantityLots)
    (vars.incomingRemaining - min vars.incomingRemaining o.remainingQuantityLots)
  refine ⟨rfl, ⟨rfl, hindex.insert _ _, ?_⟩, ?_⟩
  · exact congrArg Prod.snd hemitted
  · exact congrArg Prod.fst hemitted

/-- The inner loop. -/
theorem matchQueue_matched (hvars : T.Vars vars vars') (priceTicks : Int64)
    (queue : List RestingOrder) :
    T.Matched (List.map T.order) (matchQueue c priceTicks queue vars)
      (matchQueue (T.command c) (T.price priceTicks) (queue.map T.order) vars') := by
  induction queue generalizing vars vars' with
  | nil => exact ⟨rfl, hvars, rfl⟩
  | cons o rest ih =>
    obtain ⟨horder, hnext, hevent⟩ := fillFront_eq (c := c) hvars priceTicks o
    have hremaining : (fillFront (T.command c) (T.price priceTicks) (T.order o)
        vars').restingOrder.remainingQuantityLots =
        (fillFront c priceTicks o vars).restingOrder.remainingQuantityLots := by
      rw [horder, order_remainingQuantityLots]
    simp only [List.map_cons, matchQueue]
    rw [hvars.incomingRemaining, hremaining]
    by_cases hpos : 0 < vars.incomingRemaining
    · rw [if_pos hpos, if_pos hpos]
      by_cases hgone : (fillFront c priceTicks o vars).restingOrder.remainingQuantityLots = 0
      · rw [if_pos hgone, if_pos hgone]
        have hdropped : T.Vars
            ((fillFront c priceTicks o vars).vars.dropOrder
              (fillFront c priceTicks o vars).restingOrder.orderId)
            ((fillFront (T.command c) (T.price priceTicks) (T.order o) vars').vars.dropOrder
              (fillFront (T.command c) (T.price priceTicks) (T.order o)
                vars').restingOrder.orderId) :=
          ⟨hnext.incomingRemaining, hnext.index.erase _, hnext.counters⟩
        have hrest := ih hdropped
        exact ⟨hrest.left, hrest.vars, by rw [hevent, hrest.events, List.map_cons]⟩
      · rw [if_neg hgone, if_neg hgone]
        exact ⟨by rw [horder, List.map_cons], hnext, by rw [hevent]; rfl⟩
    · rw [if_neg hpos, if_neg hpos]
      exact ⟨rfl, hvars, rfl⟩

/-- The outer loop. -/
theorem matchLevels_matched (hprice : T.InRange c.priceTicks) (contra : Side)
    {levels : List PriceLevel} (hlevels : ∀ level ∈ levels, T.InRange level.1)
    (hvars : T.Vars vars vars') :
    T.Matched (List.map T.level) (matchLevels c contra levels vars)
      (matchLevels (T.command c) (T.side contra) (levels.map T.level) vars') := by
  induction levels generalizing vars vars' with
  | nil => exact ⟨rfl, hvars, rfl⟩
  | cons level worse ih =>
    obtain ⟨price, queue⟩ := level
    obtain ⟨hlevel, hworse⟩ := List.forall_mem_cons.mp hlevels
    have hinner := matchQueue_matched (c := c) hvars price queue
    have hcross : (T.side contra).Better (T.command c).priceTicks (T.price price) ↔
        contra.Better c.priceTicks price := T.better_iff contra hprice hlevel
    have hchanged : T.level (price, queue) = (T.price price, queue.map T.order) := rfl
    simp only [List.map_cons, hchanged, matchLevels]
    rw [hvars.incomingRemaining, if_congr hcross rfl rfl]
    by_cases hpos : 0 < vars.incomingRemaining
    · rw [if_pos hpos, if_pos hpos]
      by_cases hbetter : contra.Better c.priceTicks price
      · rw [if_pos hbetter, if_pos hbetter]
        exact ⟨rfl, hvars, rfl⟩
      · rw [if_neg hbetter, if_neg hbetter, hinner.left, List.isEmpty_map]
        cases hempty : (matchQueue c price queue vars).left.isEmpty with
        | true =>
          have hnext := ih hworse hinner.vars
          exact ⟨hnext.left, hnext.vars, by
            simp only [if_true, hinner.events, hnext.events, List.map_append]⟩
        | false => exact ⟨rfl, hinner.vars, hinner.events⟩
    · rw [if_neg hpos, if_neg hpos]
      exact ⟨rfl, hvars, rfl⟩

/-! ## The book -/

/-- The second moment is the changed one. -/
structure Relates (T : Symmetry) (m m' : Moment) : Prop where
  levels : ∀ s, m'.levels (T.side s) = (m.levels s).map T.level
  index : T.Index m.activeOrders m'.activeOrders
  instrumentId : m'.instrumentId = m.instrumentId.map T.instrumentId
  counters : m'.counters = T.counters m.counters
  range : ∀ s, ∀ level ∈ m.levels s, T.InRange level.1

variable {m m' n n' : Moment}

/-- New levels of one side and their changed counterpart. -/
theorem Relates.update (h : T.Relates m m') (s : Side) {levels : List PriceLevel}
    (hlevels : n.levels = Function.update m.levels s levels)
    (hlevels' : n'.levels = Function.update m'.levels (T.side s) (levels.map T.level))
    (hindex : T.Index n.activeOrders n'.activeOrders)
    (hinstrument : n'.instrumentId = n.instrumentId.map T.instrumentId)
    (hcounters : n'.counters = T.counters n.counters)
    (hrange : ∀ level ∈ levels, T.InRange level.1) : T.Relates n n' := by
  refine ⟨fun t => ?_, hindex, hinstrument, hcounters, fun t level hlevel => ?_⟩
  · rw [hlevels, hlevels']
    exact T.update_side m.levels m'.levels (List.map T.level) h.levels s levels t
  · rw [hlevels] at hlevel
    by_cases heq : t = s
    · rw [heq, Function.update_self] at hlevel
      exact hrange level hlevel
    · rw [Function.update_of_ne heq] at hlevel
      exact h.range t level hlevel

/-- Levels and index stay as they are. -/
theorem Relates.frame (h : T.Relates m m') (hlevels : n.levels = m.levels)
    (hlevels' : n'.levels = m'.levels) (hindex : n.activeOrders = m.activeOrders)
    (hindex' : n'.activeOrders = m'.activeOrders)
    (hinstrument : n'.instrumentId = n.instrumentId.map T.instrumentId)
    (hcounters : n'.counters = T.counters n.counters) : T.Relates n n' := by
  refine ⟨fun t => ?_, ?_, hinstrument, hcounters, ?_⟩
  · rw [hlevels, hlevels', h.levels]
  · rw [hindex, hindex']
    exact h.index
  · rw [hlevels]
    exact h.range

/-- Matching. -/
theorem Relates.withMatch (h : T.Relates m m') (s : Side)
    {result result' : MatchResult (List PriceLevel)}
    (hresult : T.Matched (List.map T.level) result result')
    (hkeys : result.left.map Prod.fst <:+ (m.levels s).map Prod.fst) :
    T.Relates (m.withMatch c s result.left result.vars)
      (m'.withMatch (T.command c) (T.side s) result'.left result'.vars) := by
  refine h.update s rfl (by rw [← hresult.left]; rfl) hresult.vars.index h.instrumentId
    hresult.vars.counters fun level hlevel => ?_
  obtain ⟨old, hold, heq⟩ := List.mem_map.mp (hkeys.subset (List.mem_map_of_mem hlevel))
  rw [← heq]
  exact h.range s old hold

/-- The range of the prices covers a new level. -/
theorem upsertEntries_range {s : Side} {levels : List PriceLevel}
    (hsorted : levels.Pairwise (fun a b => s.Better a.1 b.1))
    (hrange : ∀ level ∈ levels, T.InRange level.1) {price : Int64} (hprice : T.InRange price)
    {default : List RestingOrder} {f : List RestingOrder → List RestingOrder} :
    ∀ level ∈ OrderedMap.upsertEntries s.Better price default f levels, T.InRange level.1 := by
  intro level hlevel
  rcases (OrderedMap.mem_upsertEntries s.Better hsorted).mp hlevel with ⟨hold, -⟩ | rfl
  · exact hrange level hold
  · exact hprice

/-- Resting. -/
theorem Relates.afterRest (h : T.Relates m m') (hprice : T.InRange c.priceTicks) {s : Side}
    (hsorted : (m.levels s).Pairwise (fun a b => s.Better a.1 b.1)) (remaining : Int64) :
    T.Relates (m.afterRest c s remaining) (m'.afterRest (T.command c) (T.side s) remaining) := by
  have hlevels : OrderedMap.upsertEntries (T.side s).Better (T.price c.priceTicks) []
      (· ++ [restingOrderOf (T.command c) remaining]) ((m.levels s).map T.level) =
      (OrderedMap.upsertEntries s.Better c.priceTicks [] (· ++ [restingOrderOf c remaining])
        (m.levels s)).map T.level :=
    OrderedMap.upsertEntries_map rfl (fun queue => by rw [List.map_append]; rfl)
      (fun level hlevel => T.price_eq_iff (h.range s level hlevel) hprice)
      fun level hlevel => T.better_iff s hprice (h.range s level hlevel)
  refine h.update s rfl ?_ (h.index.insert c.orderId (restingOrderOf c remaining))
    h.instrumentId ?_ (upsertEntries_range hsorted (h.range s) hprice)
  · rw [← hlevels, ← h.levels s]
    rfl
  · unfold Moment.afterRest
    rw [h.counters, T.emitRestEvent_eq]

/-- Removing an order from the levels of its side. -/
theorem erasedEntries_eq_map {levels : List PriceLevel} {o : RestingOrder}
    (hrange : ∀ level ∈ levels, T.InRange level.1) (hprice : T.InRange o.priceTicks) (s : Side) :
    erasedEntries (T.order o) (levels.map T.level) (T.side s) =
      (erasedEntries o levels s).map T.level := by
  have hkeys : ∀ level ∈ levels, T.price level.1 = T.price o.priceTicks ↔ level.1 = o.priceTicks :=
    fun level hlevel => T.price_eq_iff (hrange level hlevel) hprice
  have hfind : OrderedMap.findEntries (T.order o).priceTicks (levels.map T.level) =
      (OrderedMap.findEntries o.priceTicks levels).map (List.map T.order) :=
    OrderedMap.findEntries_map hkeys
  have herase : OrderedMap.eraseEntries (T.order o).priceTicks (levels.map T.level) =
      (OrderedMap.eraseEntries o.priceTicks levels).map T.level := OrderedMap.eraseEntries_map hkeys
  unfold erasedEntries
  rw [hfind]
  cases OrderedMap.findEntries o.priceTicks levels with
  | none => rfl
  | some queue =>
    have hqueue : (queue.map T.order).eraseP (fun order => order.orderId = (T.order o).orderId) =
        (queue.eraseP (fun order => order.orderId = o.orderId)).map T.order := by
      rw [List.eraseP_map]
      congr 2
      funext order
      exact decide_eq_decide.mpr T.orderId_injective.eq_iff
    have hupsert : OrderedMap.upsertEntries (T.side s).Better (T.order o).priceTicks
        ((queue.eraseP (fun order => order.orderId = o.orderId)).map T.order)
        (fun _ => (queue.eraseP (fun order => order.orderId = o.orderId)).map T.order)
        (levels.map T.level) =
        (OrderedMap.upsertEntries s.Better o.priceTicks
          (queue.eraseP (fun order => order.orderId = o.orderId))
          (fun _ => queue.eraseP (fun order => order.orderId = o.orderId)) levels).map T.level :=
      OrderedMap.upsertEntries_map (f := T.price) (g := List.map T.order) rfl (fun _ => rfl) hkeys
        fun level hlevel => T.better_iff s hprice (hrange level hlevel)
    simp only [Option.map_some, hqueue, List.isEmpty_map]
    rw [herase, hupsert]
    exact (apply_ite (List.map T.level) _ _ _).symm

/-- Removing an order leaves only prices that were there. -/
theorem erasedEntries_range {s : Side} {levels : List PriceLevel}
    (hsorted : levels.Pairwise (fun a b => s.Better a.1 b.1))
    (hrange : ∀ level ∈ levels, T.InRange level.1) {o : RestingOrder}
    (hprice : T.InRange o.priceTicks) : ∀ level ∈ erasedEntries o levels s, T.InRange level.1 := by
  unfold erasedEntries
  split
  · exact hrange
  · dsimp only
    split
    · exact fun level hlevel => hrange level (List.mem_filter.mp hlevel).1
    · exact upsertEntries_range hsorted hrange hprice

/-- Cancelling. -/
theorem Relates.afterCancel (h : T.Relates m m') {o : RestingOrder}
    (hprice : T.InRange o.priceTicks) {s : Side}
    (hsorted : (m.levels s).Pairwise (fun a b => s.Better a.1 b.1)) :
    T.Relates (m.afterCancel c s o) (m'.afterCancel (T.command c) (T.side s) (T.order o)) := by
  refine h.update s rfl ?_ (h.index.erase o.orderId) h.instrumentId ?_
    (erasedEntries_range hsorted (h.range s) hprice)
  · rw [← erasedEntries_eq_map (h.range s) hprice s, ← h.levels s]
    rfl
  · unfold Moment.afterCancel
    rw [h.counters, T.emitCancelEvent_eq]

/-- The incoming order does not belong to what is compared. -/
theorem Relates.incoming (h : T.Relates m m') {incoming incoming' : Option IncomingOrder} :
    T.Relates { m with incoming := incoming } { m' with incoming := incoming' } :=
  ⟨h.levels, h.index, h.instrumentId, h.counters, h.range⟩

/-! ## The commands -/

/-- The second answer is the changed one. -/
structure Answers (T : Symmetry) (answer answer' : List ExecutionEventRecordV1 × OrderBook) :
    Prop where
  events : answer'.1 = answer.1.map T.event
  book : T.Relates answer.2.moment answer'.2.moment

variable {book book' : OrderBook}

/-- A rejection. -/
theorem Relates.reject (h : T.Relates book.moment book'.moment) (reason : RejectionReason) :
    T.Answers (book.reject c reason) (book'.reject (T.command c) reason) := by
  have hcounters : book'.counters = T.counters book.counters := h.counters
  have hemitted := T.emitRejectionEvent_eq book.counters c reason
  rw [← hcounters] at hemitted
  refine ⟨?_, h.frame rfl rfl rfl rfl h.instrumentId ?_⟩
  · exact congrArg (fun emitted => [emitted.1]) hemitted
  · exact congrArg Prod.snd hemitted

/-- The old order of a cancellation or a replacement is found. -/
theorem Relates.findOrder_eq (h : T.Relates book.moment book'.moment) :
    book'.findOrder (T.command c).orderId = (book.findOrder c.orderId).map T.order :=
  h.index c.orderId

/-- The test of the instrument. -/
theorem Relates.validateInstrument_eq (h : T.Relates book.moment book'.moment) :
    book'.validateOrderBookInstrument (T.command c) = book.validateOrderBookInstrument c := by
  have hinstrument : book'.instrumentId = book.instrumentId.map T.instrumentId := h.instrumentId
  have hname : (T.command c).instrumentId = T.instrumentId c.instrumentId := rfl
  unfold OrderBook.validateOrderBookInstrument
  rw [hinstrument, hname]
  cases book.instrumentId with
  | none => rfl
  | some instrumentId =>
    rw [Option.map_some]
    exact if_congr (T.instrumentId_injective.ne_iff) rfl rfl

/-- The validation of a new order. -/
theorem Relates.validateNewOrder_eq (h : T.Relates book.moment book'.moment) (hc : T.Admits c) :
    book'.validateNewOrder (T.command c) = book.validateNewOrder c := by
  unfold OrderBook.validateNewOrder
  by_cases hkind : decodeCommandType c.commandType = some .newOrder
  · have hside : decodeSide (T.command c).side = none ↔ decodeSide c.side = none := by
      rw [T.decodeSide_command, Option.map_eq_none_iff]
    have hprice : (T.command c).priceTicks ≤ 0 ↔ c.priceTicks ≤ 0 :=
      T.price_le_zero_iff (hc (.inl hkind))
    have hmem : (T.command c).orderId ∈ book'.activeOrders ↔ c.orderId ∈ book.activeOrders :=
      h.index.mem_iff c.orderId
    simp only [hside, hprice, hmem, h.validateInstrument_eq]
    rfl
  · rw [if_pos hkind, if_pos (show decodeCommandType (T.command c).commandType ≠ _ from hkind)]

/-- The validation of a replacement. -/
theorem Relates.validateReplaceOrder_eq (h : T.Relates book.moment book'.moment)
    (hc : T.Admits c) : book'.validateReplaceOrder (T.command c) = book.validateReplaceOrder c := by
  unfold OrderBook.validateReplaceOrder
  by_cases hkind : decodeCommandType c.commandType = some .replaceOrder
  · have hside : decodeSide (T.command c).side = none ↔ decodeSide c.side = none := by
      rw [T.decodeSide_command, Option.map_eq_none_iff]
    have hprice : (T.command c).priceTicks ≤ 0 ↔ c.priceTicks ≤ 0 :=
      T.price_le_zero_iff (hc (.inr hkind))
    have hmem : (T.command c).replacementOrderId ∈ book'.activeOrders ↔
        c.replacementOrderId ∈ book.activeOrders := h.index.mem_iff c.replacementOrderId
    have hzero : (T.command c).replacementOrderId = 0 ↔ c.replacementOrderId = 0 :=
      T.orderId_eq_zero_iff
    have hsame : (T.command c).replacementOrderId = (T.command c).orderId ↔
        c.replacementOrderId = c.orderId := T.orderId_injective.eq_iff
    rw [h.findOrder_eq]
    cases book.findOrder c.orderId with
    | none => rfl
    | some o =>
      have hinstrument : (T.order o).instrumentId = (T.command c).instrumentId ↔
          o.instrumentId = c.instrumentId := T.instrumentId_injective.eq_iff
      simp only [Option.map_some, ne_eq, hside, hprice, hinstrument, hzero, hsame, hmem]
      rfl
  · rw [if_pos hkind, if_pos (show decodeCommandType (T.command c).commandType ≠ _ from hkind)]

/-- The end of a new order. -/
theorem Relates.settleIncoming (h : T.Relates book.moment book'.moment)
    (hprice : T.InRange c.priceTicks) {s : Side} (hside : decodeSide c.side = some s)
    (remaining : Int64) :
    T.Answers (book.settleIncoming c remaining)
      (book'.settleIncoming (T.command c) remaining) := by
  have hcounters : book'.counters = T.counters book.counters := h.counters
  by_cases hzero : remaining = 0
  · have hemitted := T.emitOrderEvent_eq book.counters c .orderFullyFilled c.quantityLots 0
    rw [← hcounters] at hemitted
    unfold OrderBook.settleIncoming
    rw [if_pos hzero, if_pos hzero]
    refine ⟨?_, h.frame rfl rfl rfl rfl h.instrumentId ?_⟩
    · exact congrArg (fun emitted => [emitted.1]) hemitted
    · exact congrArg Prod.snd hemitted
  · have hside' : decodeSide (T.command c).side = some (T.side s) := by
      rw [T.decodeSide_command, hside, Option.map_some]
    have hemitted := T.emitRestEvent_eq book.counters c remaining
    rw [← hcounters] at hemitted
    rw [book.settleIncoming_of_ne_zero c hzero, book'.settleIncoming_of_ne_zero _ hzero]
    refine ⟨congrArg (fun emitted => [emitted.1]) hemitted, ?_⟩
    rw [book.restOrder_moment hside, book'.restOrder_moment hside']
    have hbefore : T.Relates (book.moment (some ⟨c, remaining⟩))
        (book'.moment (some ⟨T.command c, remaining⟩)) := h.incoming
    exact hbefore.afterRest hprice (book.levels_sorted s) remaining

/-- The matching of a new order. -/
theorem Relates.matchIncoming (h : T.Relates book.moment book'.moment)
    (hprice : T.InRange c.priceTicks) {s : Side} (hside : decodeSide c.side = some s) :
    (book'.matchIncoming (T.command c)).1 = (book.matchIncoming c).1 ∧
      (book'.matchIncoming (T.command c)).2.1 = (book.matchIncoming c).2.1.map T.event ∧
      T.Relates (book.matchIncoming c).2.2.moment
        (book'.matchIncoming (T.command c)).2.2.moment := by
  have hside' : decodeSide (T.command c).side = some (T.side s) := by
    rw [T.decodeSide_command, hside, Option.map_some]
  have hvars : T.Vars (book.matchVars c) (book'.matchVars (T.command c)) :=
    ⟨rfl, h.index, h.counters⟩
  have hlevels : book'.levels (T.side s).opposite = (book.levels s.opposite).map T.level := by
    rw [← T.side_opposite]
    exact h.levels s.opposite
  have hrange : ∀ level ∈ book.levels s.opposite, T.InRange level.1 := h.range s.opposite
  have hmatched := matchLevels_matched hprice s.opposite hrange hvars
  rw [T.side_opposite] at hmatched
  obtain ⟨hremaining, hmoment⟩ := book.matchIncoming_moment hside
  obtain ⟨hremaining', hmoment'⟩ := book'.matchIncoming_moment hside'
  rw [hlevels] at hremaining' hmoment'
  refine ⟨?_, ?_, ?_⟩
  · rw [hremaining, hremaining', hmatched.vars.incomingRemaining]
  · rw [book.matchIncoming_events hside, book'.matchIncoming_events hside', hlevels,
      hmatched.events]
  · have hbooks := h.withMatch (c := c) s.opposite hmatched
      (matchLevels_keys_suffix c s.opposite (book.levels s.opposite) (book.matchVars c))
    rw [T.side_opposite, ← hmoment, ← hmoment'] at hbooks
    exact hbooks.incoming

/-- A new order that passes the validation. -/
theorem Relates.acceptNewOrder (h : T.Relates book.moment book'.moment) (hc : T.Admits c)
    (hvalid : NewOrderValid book c) (hvalid' : NewOrderValid book' (T.command c)) :
    T.Answers (book.acceptNewOrder c) (book'.acceptNewOrder (T.command c)) := by
  obtain ⟨s, hside⟩ := hvalid.side
  have hprice := hc (.inl hvalid.kind)
  obtain ⟨haccepted, haccepting⟩ := hvalid.acceptIncoming_eq none
  obtain ⟨haccepted', haccepting'⟩ := hvalid'.acceptIncoming_eq none
  have hcounters : book'.counters = T.counters book.counters := h.counters
  have hemitted := T.emitOrderEvent_eq book.counters c .orderAccepted c.quantityLots
    c.quantityLots
  rw [← hcounters] at hemitted
  have hevent : (book'.acceptIncoming (T.command c)).1 = T.event (book.acceptIncoming c).1 := by
    rw [haccepted, haccepted']
    exact congrArg Prod.fst hemitted
  have hbook : T.Relates (book.acceptIncoming c).2.moment
      (book'.acceptIncoming (T.command c)).2.moment := by
    rw [haccepting, haccepting']
    exact h.frame rfl rfl rfl rfl rfl (congrArg Prod.snd hemitted)
  obtain ⟨hremaining, htrades, hmatched⟩ := hbook.matchIncoming hprice hside
  have hsettled := hmatched.settleIncoming hprice hside
    ((book.acceptIncoming c).2.matchIncoming c).1
  unfold OrderBook.acceptNewOrder
  dsimp only
  rw [hremaining]
  refine ⟨?_, hsettled.book⟩
  rw [hevent, htrades, hsettled.events, List.map_append, List.map_cons]

/-- A new order. -/
theorem Relates.applyNewOrder (h : T.Relates book.moment book'.moment) (hc : T.Admits c) :
    T.Answers (book.applyNewOrder c) (book'.applyNewOrder (T.command c)) := by
  have hvalidate := h.validateNewOrder_eq hc
  unfold OrderBook.applyNewOrder
  rw [hvalidate]
  by_cases hvalid : book.validateNewOrder c ≠ .none
  · rw [if_pos hvalid, if_pos hvalid]
    exact h.reject _
  · rw [if_neg hvalid, if_neg hvalid]
    have hnone := not_not.mp hvalid
    exact h.acceptNewOrder hc ((book.validateNewOrder_eq_none_iff c).mp hnone)
      ((book'.validateNewOrder_eq_none_iff _).mp (hvalidate.trans hnone))

/-- The old order of a cancellation or a replacement. -/
theorem Relates.cancelled (h : T.Relates book.moment book'.moment) (hwf : book.moment.WellFormed)
    {o : RestingOrder} (hactive : book.activeOrders.lookup c.orderId = some o) :
    (emitCancelEvent book'.counters (T.command c) (T.order o)).1 =
        T.event (emitCancelEvent book.counters c o).1 ∧
      T.Relates (book.cancelled c o).moment
        (book'.cancelled (T.command c) (T.order o)).moment := by
  obtain ⟨s, level, hlevel, -, hok⟩ := hwf.queued_of_lookup hactive
  have hside : decodeSide o.side = some s := decodeSide_eq_some_iff.mpr hok.side
  have hside' : decodeSide (T.order o).side = some (T.side s) := by
    rw [show (T.order o).side = T.sideNumber o.side from rfl, T.decodeSide_eq, hside,
      Option.map_some]
  have hprice : T.InRange o.priceTicks := hok.price ▸ h.range s level hlevel
  have hcounters : book'.counters = T.counters book.counters := h.counters
  refine ⟨?_, ?_⟩
  · rw [hcounters, T.emitCancelEvent_eq]
  · rw [book.cancelled_moment c hside, book'.cancelled_moment _ hside']
    exact h.afterCancel hprice (hwf.sorted s)

/-- A cancellation. -/
theorem Relates.applyCancelOrder (h : T.Relates book.moment book'.moment)
    (hwf : book.moment.WellFormed) :
    T.Answers (book.applyCancelOrder c) (book'.applyCancelOrder (T.command c)) := by
  unfold OrderBook.applyCancelOrder
  by_cases hkind : decodeCommandType c.commandType ≠ some .cancelOrder
  · rw [if_pos hkind, if_pos (show decodeCommandType (T.command c).commandType ≠ _ from hkind)]
    exact h.reject _
  · rw [if_neg hkind, if_neg (show ¬ decodeCommandType (T.command c).commandType ≠ _ from hkind),
      h.findOrder_eq]
    cases hactive : book.findOrder c.orderId with
    | none => exact h.reject _
    | some o =>
      have hinstrument : (T.order o).instrumentId ≠ (T.command c).instrumentId ↔
          o.instrumentId ≠ c.instrumentId := T.instrumentId_injective.ne_iff
      simp only [Option.map_some, OrderBook.removeCancelledOrder_counters]
      rw [if_congr hinstrument rfl rfl]
      by_cases hother : o.instrumentId ≠ c.instrumentId
      · rw [if_pos hother, if_pos hother]
        exact h.reject _
      · rw [if_neg hother, if_neg hother]
        obtain ⟨hevent, hbook⟩ := h.cancelled hwf hactive
        unfold OrderBook.cancelled at hbook
        simp only [OrderBook.removeCancelledOrder_counters] at hbook
        exact ⟨by rw [hevent]; rfl, hbook⟩

/-- A replacement. -/
theorem Relates.applyReplaceOrder (h : T.Relates book.moment book'.moment)
    (hwf : book.moment.WellFormed) (hc : T.Admits c)
    (hkind : decodeCommandType c.commandType = some .replaceOrder) :
    T.Answers (book.applyReplaceOrder c) (book'.applyReplaceOrder (T.command c)) := by
  unfold OrderBook.applyReplaceOrder
  rw [h.validateReplaceOrder_eq hc, h.findOrder_eq]
  by_cases hvalid : book.validateReplaceOrder c ≠ .none
  · rw [if_pos hvalid, if_pos hvalid]
    exact h.reject _
  · rw [if_neg hvalid, if_neg hvalid]
    cases hactive : book.findOrder c.orderId with
    | none => exact ⟨rfl, h⟩
    | some o =>
      simp only [Option.map_some, OrderBook.removeCancelledOrder_counters]
      obtain ⟨hevent, hbook⟩ := h.cancelled hwf hactive
      unfold OrderBook.cancelled at hbook
      simp only [OrderBook.removeCancelledOrder_counters] at hbook
      have hreplacement := hbook.applyNewOrder (c := replacementNewOrderCommand c)
        fun _ => hc (.inr hkind)
      exact ⟨by rw [hevent, List.map_cons, ← hreplacement.events]; rfl, hreplacement.book⟩

/-- Every command on a well-formed book. -/
theorem Relates.dispatch (h : T.Relates book.moment book'.moment) (hwf : book.moment.WellFormed)
    (hc : T.Admits c) : T.Answers (book.dispatch c) (book'.dispatch (T.command c)) := by
  unfold OrderBook.dispatch
  rw [show (T.command c).commandType = c.commandType from rfl]
  cases hkind : decodeCommandType c.commandType with
  | none => exact h.reject _
  | some kind =>
    cases kind with
    | newOrder => exact h.applyNewOrder hc
    | cancelOrder => exact h.applyCancelOrder hwf
    | replaceOrder => exact h.applyReplaceOrder hwf hc hkind

/-! ## Runs -/

variable (T) in
/-- A fresh book. -/
theorem relates_create (firstEventSequence : UInt64) :
    T.Relates (OrderBook.create firstEventSequence).moment
      (OrderBook.create (T.eventNumber firstEventSequence)).moment where
  levels s := by cases T.side s <;> cases s <;> rfl
  index _ := rfl
  instrumentId := rfl
  counters := rfl
  range s level hlevel := by cases s <;> cases hlevel

/-- Every run. -/
theorem Relates.applyAll {engine engine' : InstrumentEngine} (hreach : engine.Reachable)
    (h : T.Relates engine.orderBook.moment engine'.orderBook.moment)
    {commands : List OrderCommandRecordV1} (hcommands : ∀ command ∈ commands, T.Admits command) :
    (engine'.applyAll (commands.map T.command)).1 = (engine.applyAll commands).1.map T.event ∧
      T.Relates (engine.applyAll commands).2.orderBook.moment
        (engine'.applyAll (commands.map T.command)).2.orderBook.moment := by
  have hrun := engineMachine.run_translateRun engineMachine (fun _ c => some (T.command c))
    (some ∘ T.event) some
    (R := fun engine engine' => engine.Reachable ∧
      T.Relates engine.orderBook.moment engine'.orderBook.moment) (P := T.Admits)
    (fun engine engine' command hengine hcommand => ?_) ⟨hreach, h⟩ hcommands
  · rw [Machine.translateRun_some, List.filterMap_some, List.filterMap_eq_map] at hrun
    exact ⟨hrun.1, hrun.2.2⟩
  · have hanswers := hengine.2.dispatch hengine.1.wellFormed hcommand
    rw [List.filterMap_some, List.filterMap_eq_map]
    refine ⟨(List.append_nil _).trans hanswers.events, hengine.1.apply command, hanswers.book⟩

end Symmetry

end MatchingEngine
