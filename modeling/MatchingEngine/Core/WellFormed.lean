import MatchingEngine.Core.EmissionStep
import MatchingEngine.Library.KeyIndex

/-!
# The representation invariant between two emissions

The two price maps and the index are written separately. `Moment.WellFormed`
says that they describe one uncrossed book, and this file proves that each of
the six kinds of emission restores it. Both sides are treated at once: a side,
its opposite, and the key order of a side are parameters.
-/

namespace MatchingEngine

/-- The queued orders of a list of levels, in priority order. -/
def queued (levels : List PriceLevel) : List RestingOrder := levels.flatMap Prod.snd

@[simp] theorem queued_nil : queued [] = [] := rfl

@[simp] theorem queued_cons (level : PriceLevel) (levels : List PriceLevel) :
    queued (level :: levels) = level.2 ++ queued levels := rfl

@[simp] theorem queued_append (levels levels' : List PriceLevel) :
    queued (levels ++ levels') = queued levels ++ queued levels' := List.flatMap_append

@[simp] theorem queued_consLevel (priceTicks : Int64) (queue : List RestingOrder)
    (worse : List PriceLevel) :
    queued (consLevel priceTicks queue worse) = queue ++ queued worse := by
  unfold consLevel
  split
  · simp_all
  · rfl

theorem mem_queued {levels : List PriceLevel} {o : RestingOrder} :
    o ∈ queued levels ↔ ∃ level ∈ levels, o ∈ level.2 := List.mem_flatMap

/-- The order relations of the two sides are each other's converse. -/
theorem Side.better_opposite (s : Side) (p q : Int64) : s.opposite.Better p q ↔ s.Better q p := by
  cases s <;> rfl

/-- A queued order has the side and price of its level and something left to trade. -/
structure OrderOk (s : Side) (priceTicks : Int64) (o : RestingOrder) : Prop where
  /-- The side number is the one of the level's side. -/
  side : o.side = s.code
  /-- The price is the one of the level. -/
  price : o.priceTicks = priceTicks
  /-- Something is left to trade. -/
  remaining : 0 < o.remainingQuantityLots

/-- A price level is nonempty, has a positive price and holds proper orders. -/
structure LevelOk (s : Side) (level : PriceLevel) : Prop where
  /-- Empty levels are removed. -/
  nonempty : level.2 ≠ []
  /-- Prices are positive. -/
  price : 0 < level.1
  /-- Every queued order belongs here. -/
  order : ∀ o ∈ level.2, OrderOk s level.1 o

/-- What an incoming order promises while it trades. -/
structure IncomingOk (m : Moment) (incoming : IncomingOrder) : Prop where
  /-- Its price was validated. -/
  price : 0 < incoming.command.priceTicks
  /-- It never has a negative quantity left. -/
  nonneg : 0 ≤ incoming.remaining.toInt
  /-- It never has more left than it came with. -/
  le_quantity : incoming.remaining.toInt ≤ incoming.command.quantityLots.toInt
  /-- Its id is not active. -/
  new : incoming.command.orderId ∉ m.activeOrders
  /-- The book is bound to its instrument. -/
  bound : m.instrumentId = some incoming.command.instrumentId

/-- An incoming quantity that is not used up is positive. -/
theorem IncomingOk.pos_of_ne_zero {m : Moment} {incoming : IncomingOrder}
    (hok : IncomingOk m incoming) (h : incoming.remaining ≠ 0) : 0 < incoming.remaining := by
  have hnonneg := hok.nonneg
  rw [ne_eq, FixedWidth.eq_zero_iff] at h
  rw [FixedWidth.pos_iff]
  omega

/-- The representation invariant of the book between two emissions. -/
structure Moment.WellFormed (m : Moment) : Prop where
  /-- Prices of a side are strictly ordered, best first. -/
  sorted : ∀ s, (m.levels s).Pairwise (fun a b => s.Better a.1 b.1)
  /-- Every level is proper. -/
  level : ∀ s, ∀ level ∈ m.levels s, LevelOk s level
  /-- The index holds exactly the queued orders, each queued once. -/
  indexed : ∀ s, Indexes RestingOrder.orderId m.activeOrders
    (queued (m.levels s) ++ queued (m.levels s.opposite))
  /-- No price of a side reaches a price of the other side. -/
  uncrossed : ∀ s, ∀ own ∈ m.levels s, ∀ other ∈ m.levels s.opposite,
    s.opposite.Better own.1 other.1
  /-- Every queued order carries the instrument the book is bound to. -/
  bound : ∀ s, ∀ o ∈ queued (m.levels s), m.instrumentId = some o.instrumentId
  /-- The incoming order keeps its promises. -/
  incoming : ∀ incoming, m.incoming = some incoming → IncomingOk m incoming

/-- The conditions under which a new list of levels on one side and a new index
keep a moment well formed. -/
theorem Moment.WellFormed.update {m : Moment} (hm : m.WellFormed) {m' : Moment} {s : Side}
    {levels : List PriceLevel} (hlevels : m'.levels = Function.update m.levels s levels)
    (hsorted : levels.Pairwise (fun a b => s.Better a.1 b.1))
    (hlevel : ∀ level ∈ levels, LevelOk s level)
    (hindexed : Indexes RestingOrder.orderId m'.activeOrders
      (queued levels ++ queued (m.levels s.opposite)))
    (huncrossed : ∀ own ∈ levels, ∀ other ∈ m.levels s.opposite, s.opposite.Better own.1 other.1)
    (hbound : ∀ o ∈ queued levels, m'.instrumentId = some o.instrumentId)
    (hinstrument : m'.instrumentId = m.instrumentId)
    (hincoming : ∀ incoming, m'.incoming = some incoming → IncomingOk m' incoming) :
    m'.WellFormed := by
  have hself : m'.levels s = levels := by rw [hlevels, Function.update_self]
  have hother : m'.levels s.opposite = m.levels s.opposite := by
    rw [hlevels, Function.update_of_ne s.opposite_ne]
  refine ⟨fun t => ?_, fun t => ?_, fun t => ?_, fun t => ?_, fun t => ?_, hincoming⟩
  all_goals rcases s.eq_or_eq_opposite t with rfl | rfl
  · rwa [hself]
  · rw [hother]
    exact hm.sorted _
  · rwa [hself]
  · rw [hother]
    exact hm.level _
  · rwa [hself, hother]
  · rw [Side.opposite_opposite, hself, hother]
    exact hindexed.perm List.perm_append_comm
  · rwa [hself, hother]
  · rw [Side.opposite_opposite, hself, hother]
    intro other hmem own hown
    rw [← s.better_opposite]
    exact huncrossed own hown other hmem
  · rwa [hself]
  · rw [hother, hinstrument]
    exact hm.bound _

/-- Emissions that leave the queues, the index and the binding alone keep a
moment well formed. -/
theorem Moment.WellFormed.frame {m m' : Moment} (hm : m.WellFormed)
    (hlevels : m'.levels = m.levels) (hactive : m'.activeOrders = m.activeOrders)
    (hbound : ∀ s, ∀ o ∈ queued (m.levels s), m'.instrumentId = some o.instrumentId)
    (hincoming : ∀ incoming, m'.incoming = some incoming → IncomingOk m' incoming) :
    m'.WellFormed := by
  refine ⟨?_, ?_, ?_, ?_, ?_, hincoming⟩
  · rw [hlevels]; exact hm.sorted
  · rw [hlevels]; exact hm.level
  · rw [hlevels, hactive]; exact hm.indexed
  · rw [hlevels]; exact hm.uncrossed
  · rwa [hlevels]

/-! ## Trades -/

/-- The arithmetic of one trade between positive quantities: the traded quantity
is positive, both differences are exact, and one of the two is used up. -/
structure FillExact (remaining : Int64) (o : RestingOrder) (fill : Fill) : Prop where
  /-- The traded quantity is positive. -/
  quantity_pos : 0 < (min remaining o.remainingQuantityLots).toInt
  /-- The incoming quantity is reduced by the traded quantity. -/
  incoming : fill.vars.incomingRemaining.toInt =
    remaining.toInt - (min remaining o.remainingQuantityLots).toInt
  /-- The resting quantity is reduced by the traded quantity. -/
  resting : fill.restingOrder.remainingQuantityLots.toInt =
    o.remainingQuantityLots.toInt - (min remaining o.remainingQuantityLots).toInt
  /-- The incoming quantity does not become negative. -/
  incoming_nonneg : 0 ≤ fill.vars.incomingRemaining.toInt
  /-- The resting quantity does not become negative. -/
  resting_nonneg : 0 ≤ fill.restingOrder.remainingQuantityLots.toInt

theorem fillFront_exact (command : OrderCommandRecordV1) (priceTicks : Int64) {o : RestingOrder}
    (vars : MatchVars) (hincoming : 0 < vars.incomingRemaining)
    (hresting : 0 < o.remainingQuantityLots) :
    FillExact vars.incomingRemaining o (fillFront command priceTicks o vars) := by
  have hmin := FixedWidth.toInt_min vars.incomingRemaining o.remainingQuantityLots
  rw [FixedWidth.pos_iff] at hincoming hresting
  have hpos : 0 < (min vars.incomingRemaining o.remainingQuantityLots).toInt := by omega
  have hfirst := FixedWidth.toInt_sub_of_le (a := vars.incomingRemaining)
    (b := min vars.incomingRemaining o.remainingQuantityLots) (by omega) (by omega)
  have hsecond := FixedWidth.toInt_sub_of_le (a := o.remainingQuantityLots)
    (b := min vars.incomingRemaining o.remainingQuantityLots) (by omega) (by omega)
  refine ⟨hpos, hfirst, hsecond, ?_, ?_⟩
  · change 0 ≤ (vars.incomingRemaining - _).toInt
    omega
  · change 0 ≤ (o.remainingQuantityLots - _).toInt
    omega

/-- The front order of a level is proper. -/
theorem Moment.WellFormed.front {m : Moment} (hm : m.WellFormed) {s : Side} {priceTicks : Int64}
    {o : RestingOrder} {rest : List RestingOrder} {worse : List PriceLevel}
    (hlevels : m.levels s = (priceTicks, o :: rest) :: worse) : OrderOk s priceTicks o := by
  have hlevel := hm.level s (priceTicks, o :: rest) (by rw [hlevels]; exact List.mem_cons_self)
  exact hlevel.order o List.mem_cons_self

/-- A queued order is found in the index. -/
theorem Moment.WellFormed.lookup_of_queued {m : Moment} (hm : m.WellFormed) {s : Side}
    {o : RestingOrder} (ho : o ∈ queued (m.levels s)) :
    m.activeOrders.lookup o.orderId = some o :=
  (hm.indexed s).lookup_key (List.mem_append_left _ ho)

/-- The front order of a level is found in the index. -/
theorem Moment.WellFormed.lookup_front {m : Moment} (hm : m.WellFormed) {s : Side}
    {priceTicks : Int64} {o : RestingOrder} {rest : List RestingOrder} {worse : List PriceLevel}
    (hlevels : m.levels s = (priceTicks, o :: rest) :: worse) :
    m.activeOrders.lookup o.orderId = some o := by
  have hqueued : o ∈ queued (m.levels s) := by simp [hlevels]
  exact hm.lookup_of_queued hqueued

/-- A queue in front of worse levels shows its price or none. -/
theorem keys_consLevel_sublist (priceTicks : Int64) (queue : List RestingOrder)
    (worse : List PriceLevel) :
    ((consLevel priceTicks queue worse).map Prod.fst).Sublist
      (priceTicks :: worse.map Prod.fst) := by
  unfold consLevel
  split
  · exact List.sublist_cons_self _ _
  · exact List.Sublist.refl _

/-- The contra levels after a trade are the remaining orders of the old ones. -/
theorem queued_levelsAfterFill (fill : Fill) (priceTicks : Int64) (rest : List RestingOrder)
    (worse : List PriceLevel) :
    queued (levelsAfterFill fill priceTicks rest worse) =
      (if fill.restingOrder.remainingQuantityLots = 0 then [] else [fill.restingOrder]) ++
        (rest ++ queued worse) := by
  unfold levelsAfterFill
  split <;> simp

/-- A trade leaves the worse levels and, if an order is left in it, the best one. -/
theorem mem_levelsAfterFill {fill : Fill} {priceTicks : Int64} {rest : List RestingOrder}
    {worse : List PriceLevel} {level : PriceLevel}
    (hmem : level ∈ levelsAfterFill fill priceTicks rest worse) :
    level ∈ worse ∨ (level.1 = priceTicks ∧ level.2 ≠ [] ∧
      ∀ o ∈ level.2, o ∈ rest ∨
        (o = fill.restingOrder ∧ fill.restingOrder.remainingQuantityLots ≠ 0)) := by
  unfold levelsAfterFill consLevel at hmem
  split at hmem
  · split at hmem
    · exact Or.inl hmem
    · rcases List.mem_cons.mp hmem with rfl | hmem
      · exact Or.inr ⟨rfl, by assumption, fun o ho => Or.inl ho⟩
      · exact Or.inl hmem
  · rw [if_neg (by simp)] at hmem
    rcases List.mem_cons.mp hmem with rfl | hmem
    · refine Or.inr ⟨rfl, by simp, fun o ho => ?_⟩
      rcases List.mem_cons.mp ho with rfl | ho
      · exact Or.inr ⟨rfl, by assumption⟩
      · exact Or.inl ho
    · exact Or.inl hmem

/-- The keys after a trade are a sublist of the keys before it. -/
theorem keys_levelsAfterFill_sublist (fill : Fill) (priceTicks : Int64) (rest : List RestingOrder)
    (worse : List PriceLevel) :
    ((levelsAfterFill fill priceTicks rest worse).map Prod.fst).Sublist
      (priceTicks :: worse.map Prod.fst) := by
  unfold levelsAfterFill
  split <;> exact keys_consLevel_sublist _ _ _

/-- A trade leaves proper levels. -/
theorem levelOk_of_mem_levelsAfterFill (command : OrderCommandRecordV1) {s : Side}
    {priceTicks : Int64} {o : RestingOrder} {rest : List RestingOrder} {worse : List PriceLevel}
    {vars : MatchVars} (hincoming : 0 < vars.incomingRemaining)
    (hlevel : ∀ level ∈ (priceTicks, o :: rest) :: worse, LevelOk s level) {level : PriceLevel}
    (hmem : level ∈ levelsAfterFill (fillFront command priceTicks o vars) priceTicks rest worse) :
    LevelOk s level := by
  have hbest := hlevel _ List.mem_cons_self
  have hfront := hbest.order o List.mem_cons_self
  have hexact := fillFront_exact command priceTicks vars hincoming hfront.remaining
  rcases mem_levelsAfterFill hmem with hmem | ⟨hprice, hne, hqueue⟩
  · exact hlevel level (List.mem_cons_of_mem _ hmem)
  · refine ⟨hne, hprice ▸ hbest.price, fun order horder => ?_⟩
    rw [hprice]
    rcases hqueue order horder with horder | ⟨rfl, hne⟩
    · exact hbest.order order (List.mem_cons_of_mem _ horder)
    · refine ⟨hfront.side, hfront.price, ?_⟩
      rw [FixedWidth.pos_iff]
      have hnonneg := hexact.resting_nonneg
      rw [ne_eq, FixedWidth.eq_zero_iff] at hne
      omega

/-- The incoming order keeps its promises when it trades. -/
theorem IncomingOk.afterFill {m m' : Moment} {command : OrderCommandRecordV1} {remaining : Int64}
    {o : RestingOrder} {fill : Fill} (hok : IncomingOk m ⟨command, remaining⟩)
    (hexact : FillExact remaining o fill) (hnew : command.orderId ∉ m'.activeOrders)
    (hinstrument : m'.instrumentId = m.instrumentId) :
    IncomingOk m' ⟨command, fill.vars.incomingRemaining⟩ := by
  have hle := hok.le_quantity
  have hincoming := hexact.incoming
  have hpos := hexact.quantity_pos
  refine ⟨hok.price, hexact.incoming_nonneg, ?_, hnew, hinstrument.trans hok.bound⟩
  dsimp only at hle ⊢
  omega

/-- The index after a trade holds exactly the orders that are still queued. -/
theorem indexes_varsAfterFill (command : OrderCommandRecordV1) (priceTicks : Int64)
    {o : RestingOrder} {others : List RestingOrder} (vars : MatchVars)
    (hindexed : Indexes RestingOrder.orderId vars.activeOrders (o :: others)) :
    Indexes RestingOrder.orderId
      (varsAfterFill (fillFront command priceTicks o vars)).activeOrders
      ((if (fillFront command priceTicks o vars).restingOrder.remainingQuantityLots = 0 then []
        else [(fillFront command priceTicks o vars).restingOrder]) ++ others) := by
  have hreplaced := hindexed.replace (fillFront command priceTicks o vars).restingOrder rfl
  unfold varsAfterFill
  split
  · exact hreplaced.remove
  · exact hreplaced

/-- A trade brings no order into the index. -/
theorem mem_of_mem_varsAfterFill {command : OrderCommandRecordV1} {priceTicks : Int64}
    {o : RestingOrder} {vars : MatchVars} (hactive : o.orderId ∈ vars.activeOrders)
    {orderId : UInt64}
    (hmem : orderId ∈ (varsAfterFill (fillFront command priceTicks o vars)).activeOrders) :
    orderId ∈ vars.activeOrders := by
  have hinsert : orderId ∈ (fillFront command priceTicks o vars).vars.activeOrders := by
    unfold varsAfterFill at hmem
    split at hmem
    · exact (Finmap.mem_erase.mp hmem).2
    · exact hmem
  rcases Finmap.mem_insert.mp hinsert with rfl | hold
  · exact hactive
  · exact hold

/-- A trade keeps the incoming quantity found by the loop body. -/
@[simp] theorem varsAfterFill_incomingRemaining (fill : Fill) :
    (varsAfterFill fill).incomingRemaining = fill.vars.incomingRemaining := by
  unfold varsAfterFill
  split <;> rfl

/-- Trading with the front order keeps a moment well formed. -/
theorem Moment.WellFormed.trade {m : Moment} (hm : m.WellFormed) {command : OrderCommandRecordV1}
    {remaining : Int64} {s : Side} {priceTicks : Int64} {o : RestingOrder}
    {rest : List RestingOrder} {worse : List PriceLevel}
    (hincoming : m.incoming = some ⟨command, remaining⟩) (hremaining : 0 < remaining)
    (hlevels : m.levels s.opposite = (priceTicks, o :: rest) :: worse) :
    (m.withMatch command s.opposite
      (levelsAfterFill (fillFront command priceTicks o (m.vars remaining)) priceTicks rest worse)
      (varsAfterFill (fillFront command priceTicks o (m.vars remaining)))).WellFormed := by
  have hfront := hm.front hlevels
  have hexact := fillFront_exact command priceTicks (m.vars remaining) hremaining
    hfront.remaining
  have hlevel := hm.level s.opposite
  have hsorted := hm.sorted s.opposite
  have huncrossed := hm.uncrossed s.opposite
  have hbound := hm.bound s.opposite
  rw [hlevels] at hlevel hsorted huncrossed hbound
  have hindexed : Indexes RestingOrder.orderId m.activeOrders
      (o :: (rest ++ queued worse ++ queued (m.levels s.opposite.opposite))) := by
    have h := hm.indexed s.opposite
    rw [hlevels] at h
    simpa using h
  have hafter := indexes_varsAfterFill command priceTicks (m.vars remaining) hindexed
  refine hm.update rfl ?_ ?_ ?_ ?_ ?_ rfl ?_
  · refine List.pairwise_map.mp (List.Pairwise.sublist
      (keys_levelsAfterFill_sublist _ priceTicks rest worse) ?_)
    simpa [List.pairwise_map] using hsorted
  · exact fun level hmem => levelOk_of_mem_levelsAfterFill command hremaining hlevel hmem
  · rw [queued_levelsAfterFill]
    simp only [List.append_assoc] at hafter ⊢
    exact hafter
  · intro own hmem other hother
    rcases mem_levelsAfterFill hmem with hmem | ⟨hprice, _, _⟩
    · exact huncrossed own (List.mem_cons_of_mem _ hmem) other hother
    · rw [hprice]
      exact huncrossed _ List.mem_cons_self other hother
  · intro order hmem
    rw [queued_levelsAfterFill] at hmem
    rcases List.mem_append.mp hmem with hmem | hmem
    · have hinstrument := hbound o (by simp)
      split at hmem
      · cases hmem
      · rw [List.mem_singleton.mp hmem]
        exact hinstrument
    · exact hbound order (by simpa using Or.inr (List.mem_append.mp hmem))
  · rintro incoming hsome
    obtain rfl := Option.some.inj hsome
    have hok := hm.incoming _ hincoming
    rw [varsAfterFill_incomingRemaining]
    have hactive : o.orderId ∈ m.activeOrders := Finmap.mem_iff.mpr ⟨o, hm.lookup_front hlevels⟩
    exact hok.afterFill hexact (fun hmem => hok.new (mem_of_mem_varsAfterFill hactive hmem)) rfl

/-! ## Cancellations -/

/-- An active order is queued on some side, where it belongs. -/
theorem Moment.WellFormed.queued_of_lookup {m : Moment} (hm : m.WellFormed) {orderId : UInt64}
    {o : RestingOrder} (hactive : m.activeOrders.lookup orderId = some o) :
    ∃ s, ∃ level ∈ m.levels s, o ∈ level.2 ∧ OrderOk s level.1 o := by
  rcases List.mem_append.mp ((hm.indexed .buy).mem_of_lookup hactive) with h | h
  all_goals
    obtain ⟨level, hlevel, ho⟩ := mem_queued.mp h
    exact ⟨_, level, hlevel, ho, (hm.level _ level hlevel).order o ho⟩

/-- An active order is queued on the side its number names, at its own price. -/
theorem Moment.WellFormed.locate {m : Moment} (hm : m.WellFormed) {orderId : UInt64}
    {o : RestingOrder} {s : Side} (hactive : m.activeOrders.lookup orderId = some o)
    (hside : decodeSide o.side = some s) :
    ∃ before ahead behind after,
      m.levels s = before ++ (o.priceTicks, ahead ++ o :: behind) :: after ∧
      (∀ level ∈ before, s.Better level.1 o.priceTicks) ∧
      (∀ level ∈ after, s.Better o.priceTicks level.1) ∧
      (∀ a ∈ ahead, a.orderId ≠ o.orderId) := by
  obtain ⟨t, ⟨price, queue⟩, hlevel, ho, hok⟩ := hm.queued_of_lookup hactive
  obtain rfl : t = s :=
    Side.code_injective (hok.side.symm.trans (decodeSide_eq_some_iff.mp hside))
  have hprice : o.priceTicks = price := hok.price
  obtain ⟨ahead, behind, hqueue⟩ := List.append_of_mem ho
  obtain ⟨before, after, hsplit⟩ := List.append_of_mem hlevel
  have hsorted := hm.sorted t
  rw [hsplit] at hsorted
  obtain ⟨_, hafter, hcross⟩ := List.pairwise_append.mp hsorted
  have hqueue' : queue = ahead ++ o :: behind := hqueue
  refine ⟨before, ahead, behind, after, ?_, ?_, ?_, ?_⟩
  · rw [hsplit, hprice, hqueue']
  · intro level hlevel
    rw [hprice]
    exact hcross level hlevel _ List.mem_cons_self
  · intro level hlevel
    rw [hprice]
    exact List.rel_of_pairwise_cons hafter hlevel
  · intro a ha heq
    have hnodup := (hm.indexed t).nodup
    rw [hsplit, hqueue'] at hnodup
    simp only [queued_append, queued_cons, List.map_append, List.map_cons, List.append_assoc,
      List.cons_append] at hnodup
    have htail := (List.nodup_append.mp hnodup).2.1
    exact (List.nodup_append.mp htail).2.2 _ (List.mem_map_of_mem ha) _ List.mem_cons_self heq

/-- Erasing an order from sorted levels takes exactly that order out of its
queue, and the level with it when it was the only one. -/
theorem erasedEntries_eq {s : Side} {o : RestingOrder} {before after : List PriceLevel}
    {ahead behind : List RestingOrder} (hbefore : ∀ level ∈ before, s.Better level.1 o.priceTicks)
    (hafter : ∀ level ∈ after, s.Better o.priceTicks level.1)
    (hahead : ∀ a ∈ ahead, a.orderId ≠ o.orderId) :
    erasedEntries o (before ++ (o.priceTicks, ahead ++ o :: behind) :: after) s =
      before ++ consLevel o.priceTicks (ahead ++ behind) after := by
  have hfind : OrderedMap.findEntries o.priceTicks
      (before ++ (o.priceTicks, ahead ++ o :: behind) :: after) = some (ahead ++ o :: behind) := by
    refine OrderedMap.findEntries_append_cons ?_
    intro level hlevel heq
    have hlt := hbefore level hlevel
    rw [heq] at hlt
    exact irrefl _ hlt
  have herase : (ahead ++ o :: behind).eraseP (fun order => order.orderId = o.orderId) =
      ahead ++ behind := by
    rw [List.eraseP_append_right _ (by simpa using hahead), List.eraseP_cons_of_pos (by simp)]
  unfold erasedEntries consLevel
  simp only [hfind, herase, List.isEmpty_iff]
  split
  · exact OrderedMap.eraseEntries_split s.Better hbefore hafter
  · exact OrderedMap.upsertEntries_append_cons s.Better hbefore

/-- Taking an order out of its queue leaves nonempty levels of orders that were there. -/
theorem mem_append_consLevel {before after : List PriceLevel} {priceTicks : Int64}
    {ahead behind : List RestingOrder} {o : RestingOrder}
    (hnonempty : ∀ level ∈ before ++ (priceTicks, ahead ++ o :: behind) :: after, level.2 ≠ [])
    {level : PriceLevel} (hmem : level ∈ before ++ consLevel priceTicks (ahead ++ behind) after) :
    ∃ old ∈ before ++ (priceTicks, ahead ++ o :: behind) :: after,
      level.1 = old.1 ∧ level.2 ≠ [] ∧ ∀ a ∈ level.2, a ∈ old.2 := by
  rcases List.mem_append.mp hmem with hmem | hmem
  · have hold := List.mem_append_left ((priceTicks, ahead ++ o :: behind) :: after) hmem
    exact ⟨level, hold, rfl, hnonempty level hold, fun _ h => h⟩
  · unfold consLevel at hmem
    split at hmem
    · have hold := List.mem_append_right before
        (List.mem_cons_of_mem (priceTicks, ahead ++ o :: behind) hmem)
      exact ⟨level, hold, rfl, hnonempty level hold, fun _ h => h⟩
    · rcases List.mem_cons.mp hmem with rfl | hmem
      · refine ⟨(priceTicks, ahead ++ o :: behind),
          List.mem_append_right _ List.mem_cons_self, rfl, by assumption, ?_⟩
        intro a ha
        rcases List.mem_append.mp ha with ha | ha
        · exact List.mem_append_left _ ha
        · exact List.mem_append_right _ (List.mem_cons_of_mem _ ha)
      · have hold := List.mem_append_right before
          (List.mem_cons_of_mem (priceTicks, ahead ++ o :: behind) hmem)
        exact ⟨level, hold, rfl, hnonempty level hold, fun _ h => h⟩

/-- Taking an order out of its queue takes it out of the priority list. -/
theorem queued_append_consLevel_perm (before after : List PriceLevel) (priceTicks : Int64)
    (ahead behind : List RestingOrder) (o : RestingOrder) :
    (queued (before ++ (priceTicks, ahead ++ o :: behind) :: after)).Perm
      (o :: queued (before ++ consLevel priceTicks (ahead ++ behind) after)) := by
  have hmiddle : (queued before ++ ahead ++ o :: (behind ++ queued after)).Perm
      (o :: (queued before ++ ahead ++ (behind ++ queued after))) := List.perm_middle
  simpa only [queued_append, queued_cons, queued_consLevel, List.append_assoc, List.cons_append]
    using hmiddle

/-- Removing an active order keeps a moment well formed. -/
theorem Moment.WellFormed.cancel {m : Moment} (hm : m.WellFormed) {command : OrderCommandRecordV1}
    {o : RestingOrder} {s : Side} (hidle : m.incoming = none)
    (hactive : m.activeOrders.lookup command.orderId = some o)
    (hside : decodeSide o.side = some s) : (m.afterCancel command s o).WellFormed := by
  obtain ⟨before, ahead, behind, after, hsplit, hbefore, hafter, hahead⟩ :=
    hm.locate hactive hside
  have herased : erasedEntries o (m.levels s) s =
      before ++ consLevel o.priceTicks (ahead ++ behind) after := by
    rw [hsplit, erasedEntries_eq hbefore hafter hahead]
  have hsorted := hm.sorted s
  have hlevel := hm.level s
  have huncrossed := hm.uncrossed s
  have hbound := hm.bound s
  rw [hsplit] at hsorted hlevel huncrossed hbound
  have hkept : ∀ level ∈ before ++ consLevel o.priceTicks (ahead ++ behind) after,
      ∃ old ∈ before ++ (o.priceTicks, ahead ++ o :: behind) :: after,
        level.1 = old.1 ∧ level.2 ≠ [] ∧ ∀ a ∈ level.2, a ∈ old.2 :=
    fun _ => mem_append_consLevel fun old hold => (hlevel old hold).nonempty
  have hlevels : (m.afterCancel command s o).levels = Function.update m.levels s
      (before ++ consLevel o.priceTicks (ahead ++ behind) after) := by
    rw [← herased]
    rfl
  refine hm.update (s := s) hlevels ?_ ?_ ?_ ?_ ?_ rfl ?_
  · have hkeys : ((before ++ consLevel o.priceTicks (ahead ++ behind) after).map Prod.fst).Sublist
        ((before ++ (o.priceTicks, ahead ++ o :: behind) :: after).map Prod.fst) := by
      rw [List.map_append, List.map_append]
      exact (keys_consLevel_sublist _ _ _).append_left _
    exact List.pairwise_map.mp ((List.pairwise_map.mpr hsorted).sublist hkeys)
  · intro level hmem
    obtain ⟨old, hold, hprice, hne, hqueue⟩ := hkept level hmem
    have hok := hlevel old hold
    exact ⟨hne, hprice ▸ hok.price, fun a ha => hprice ▸ hok.order a (hqueue a ha)⟩
  · have hindexed := hm.indexed s
    rw [hsplit] at hindexed
    have hperm := queued_append_consLevel_perm before after o.priceTicks ahead behind o
    exact (hindexed.perm (hperm.append_right _)).remove
  · intro own hmem other hother
    obtain ⟨old, hold, hprice, _, _⟩ := hkept own hmem
    rw [hprice]
    exact huncrossed old hold other hother
  · intro a ha
    obtain ⟨level, hmem, ha⟩ := mem_queued.mp ha
    obtain ⟨old, hold, _, _, hqueue⟩ := hkept level hmem
    exact hbound a (mem_queued.mpr ⟨old, hold, hqueue a ha⟩)
  · intro incoming hsome
    rw [show (m.afterCancel command s o).incoming = m.incoming from rfl, hidle] at hsome
    cases hsome

/-! ## Resting -/

/-- Joining the back of a price puts one order into the priority list, behind
every order of a better price or of the same price. -/
theorem queued_upsertEntries {s : Side} {levels : List PriceLevel}
    (hsorted : levels.Pairwise (fun a b => s.Better a.1 b.1))
    (hprice : ∀ level ∈ levels, ∀ a ∈ level.2, a.priceTicks = level.1) (o : RestingOrder) :
    ∃ ahead behind, queued levels = ahead ++ behind ∧
      queued (OrderedMap.upsertEntries s.Better o.priceTicks [] (· ++ [o]) levels) =
        ahead ++ o :: behind ∧
      (∀ a ∈ ahead, s.Better a.priceTicks o.priceTicks ∨ a.priceTicks = o.priceTicks) ∧
      ∀ b ∈ behind, s.Better o.priceTicks b.priceTicks := by
  obtain ⟨before, after, hbefore, hafter, hcase⟩ :=
    OrderedMap.upsertEntries_split s.Better o.priceTicks [] (· ++ [o]) hsorted
  rcases hcase with ⟨-, heq, hupsert⟩ | ⟨queue, -, heq, hupsert⟩
  · refine ⟨queued before, queued after, ?_, ?_, fun a ha => ?_, fun b hb => ?_⟩
    · rw [heq, queued_append]
    · rw [hupsert, queued_append, queued_cons, List.nil_append, List.singleton_append]
    · obtain ⟨level, hlevel, ha⟩ := mem_queued.mp ha
      rw [hprice level (heq ▸ List.mem_append_left _ hlevel) a ha]
      exact Or.inl (hbefore level hlevel)
    · obtain ⟨level, hlevel, hb⟩ := mem_queued.mp hb
      rw [hprice level (heq ▸ List.mem_append_right _ hlevel) b hb]
      exact hafter level hlevel
  · refine ⟨queued before ++ queue, queued after, ?_, ?_, fun a ha => ?_, fun b hb => ?_⟩
    · rw [heq, queued_append, queued_cons, List.append_assoc]
    · rw [hupsert, queued_append, queued_cons]
      simp only [List.append_assoc, List.singleton_append]
    · rcases List.mem_append.mp ha with ha | ha
      · obtain ⟨level, hlevel, ha⟩ := mem_queued.mp ha
        rw [hprice level (heq ▸ List.mem_append_left _ hlevel) a ha]
        exact Or.inl (hbefore level hlevel)
      · exact Or.inr (hprice (o.priceTicks, queue)
          (heq ▸ List.mem_append_right _ List.mem_cons_self) a ha)
    · obtain ⟨level, hlevel, hb⟩ := mem_queued.mp hb
      rw [hprice level (heq ▸ List.mem_append_right _ (List.mem_cons_of_mem _ hlevel)) b hb]
      exact hafter level hlevel

/-- The orders of a well-formed moment carry the price of their level. -/
theorem Moment.WellFormed.price_eq {m : Moment} (hm : m.WellFormed) (s : Side) :
    ∀ level ∈ m.levels s, ∀ a ∈ level.2, a.priceTicks = level.1 :=
  fun level hlevel a ha => ((hm.level s level hlevel).order a ha).price

/-- An order that does not reach the best contra price reaches no contra price. -/
theorem Moment.WellFormed.uncrossed_of_head {m : Moment} (hm : m.WellFormed) {s : Side}
    {priceTicks : Int64} (hcross : ∀ level ∈ (m.levels s).head?, s.Better priceTicks level.1) :
    ∀ level ∈ m.levels s, s.Better priceTicks level.1 := by
  intro level hmem
  have hsorted := hm.sorted s
  cases hlevels : m.levels s with
  | nil =>
    rw [hlevels] at hmem
    cases hmem
  | cons best worse =>
    rw [hlevels] at hsorted hcross hmem
    have hbest := hcross best rfl
    rcases List.mem_cons.mp hmem with rfl | hmem
    · exact hbest
    · exact trans_of s.Better hbest (List.rel_of_pairwise_cons hsorted hmem)

/-- Resting the remainder of an order keeps a moment well formed. -/
theorem Moment.WellFormed.rest {m : Moment} (hm : m.WellFormed) {command : OrderCommandRecordV1}
    {remaining : Int64} {s : Side} (hincoming : m.incoming = some ⟨command, remaining⟩)
    (hside : decodeSide command.side = some s) (hremaining : remaining ≠ 0)
    (hcross : ∀ level ∈ (m.levels s.opposite).head?,
      remaining ≤ 0 ∨ s.opposite.Better command.priceTicks level.1) :
    (m.afterRest command s remaining).WellFormed := by
  have hok := hm.incoming _ hincoming
  have hpos : 0 < remaining := hok.pos_of_ne_zero hremaining
  have hhead : ∀ level ∈ m.levels s.opposite, s.opposite.Better command.priceTicks level.1 :=
    hm.uncrossed_of_head fun level hlevel => (hcross level hlevel).resolve_left (not_le.mpr hpos)
  have hmem : ∀ level, level ∈ OrderedMap.upsertEntries s.Better command.priceTicks []
      (· ++ [restingOrderOf command remaining]) (m.levels s) →
      level ∈ m.levels s ∨ level.1 = command.priceTicks ∧ level.2 ≠ [] ∧
        ∀ o ∈ level.2, o = restingOrderOf command remaining ∨
          ∃ old ∈ m.levels s, old.1 = command.priceTicks ∧ o ∈ old.2 := by
    intro level hlevel
    rcases (OrderedMap.mem_upsertEntries s.Better (hm.sorted s)).mp hlevel with ⟨h, _⟩ | rfl
    · exact Or.inl h
    · refine Or.inr ⟨rfl, by simp, fun o ho => ?_⟩
      rcases List.mem_append.mp ho with ho | ho
      · cases hfind : OrderedMap.findEntries command.priceTicks (m.levels s) with
        | none =>
          rw [hfind] at ho
          cases ho
        | some queue =>
          rw [hfind] at ho
          obtain ⟨before, after, hsplit, _, _⟩ :=
            OrderedMap.findEntries_split s.Better (hm.sorted s) hfind
          refine Or.inr ⟨(command.priceTicks, queue), ?_, rfl, ho⟩
          rw [hsplit]
          exact List.mem_append_right _ List.mem_cons_self
      · exact Or.inl (List.mem_singleton.mp ho)
  refine hm.update (s := s) rfl (OrderedMap.upsertEntries_sorted _ _ _ _ (hm.sorted s))
    ?_ ?_ ?_ ?_ rfl ?_
  · intro level hlevel
    rcases hmem level hlevel with h | ⟨hprice, hne, hqueue⟩
    · exact hm.level s level h
    · refine ⟨hne, hprice ▸ hok.price, fun o ho => ?_⟩
      rcases hqueue o ho with rfl | ⟨old, hold, holdPrice, ho⟩
      · exact ⟨decodeSide_eq_some_iff.mp hside, hprice.symm, hpos⟩
      · rw [hprice, ← holdPrice]
        exact (hm.level s old hold).order o ho
  · obtain ⟨ahead, behind, hold, hnew, -, -⟩ :=
      queued_upsertEntries (hm.sorted s) (hm.price_eq s) (restingOrderOf command remaining)
    have hadded := (hm.indexed s).add (a := restingOrderOf command remaining) hok.new
    refine hadded.perm ?_
    change List.Perm _ (queued (OrderedMap.upsertEntries s.Better
      (restingOrderOf command remaining).priceTicks [] _ (m.levels s)) ++ _)
    rw [hnew, hold]
    simp only [List.append_assoc, List.cons_append]
    exact List.perm_middle.symm
  · intro own hown other hother
    rcases hmem own hown with h | ⟨hprice, _, _⟩
    · exact hm.uncrossed s own h other hother
    · rw [hprice]
      exact hhead other hother
  · intro o ho
    obtain ⟨level, hlevel, ho⟩ := mem_queued.mp ho
    rcases hmem level hlevel with h | ⟨_, _, hqueue⟩
    · exact hm.bound s o (mem_queued.mpr ⟨level, h, ho⟩)
    · rcases hqueue o ho with rfl | ⟨old, hold, _, ho⟩
      · exact hok.bound
      · exact hm.bound s o (mem_queued.mpr ⟨old, hold, ho⟩)
  · intro incoming hsome
    cases hsome

/-! ## All kinds of emission -/

/-- Every emission keeps a moment well formed. -/
theorem EmissionStep.wellFormed {m m' : Moment} {e : Emission} (hstep : EmissionStep m e m')
    (hm : m.WellFormed) : m'.WellFormed := by
  cases hstep with
  | reject command reason hidle =>
    refine hm.frame rfl rfl hm.bound fun incoming hsome => ?_
    exact absurd (hidle.symm.trans hsome) (by simp)
  | cancel hidle hactive hside => exact hm.cancel hidle hactive hside
  | @accept command s hidle hside hprice hquantity hnew hinstrument =>
    refine hm.frame rfl rfl (fun t o ho => ?_) fun incoming hsome => ?_
    · exact congrArg some (hinstrument _ (hm.bound t o ho))
    · obtain rfl := Option.some.inj hsome
      exact ⟨hprice, (FixedWidth.pos_iff.mp hquantity).le, le_rfl, hnew, rfl⟩
  | trade hincoming hside hremaining hlevels hcross =>
    exact hm.trade hincoming hremaining hlevels
  | fill hincoming =>
    exact hm.frame rfl rfl hm.bound fun incoming hsome => by cases hsome
  | rest hincoming hside hremaining hcross => exact hm.rest hincoming hside hremaining hcross

/-- A sequence of emissions keeps a moment well formed. -/
theorem EmissionSteps.wellFormed {m m' : Moment} {es : List Emission}
    (hsteps : EmissionSteps m es m') (hm : m.WellFormed) : m'.WellFormed :=
  hsteps.preserves (P := fun _ m => m.WellFormed) (fun hstep hm => hstep.wellFormed hm) [] hm

/-- The empty book is well formed. -/
theorem OrderBook.wellFormed_create (firstEventSequence : UInt64) :
    (OrderBook.create firstEventSequence).moment.WellFormed where
  sorted s := by cases s <;> exact List.Pairwise.nil
  level s := by cases s <;> exact fun _ h => absurd h (List.not_mem_nil)
  indexed s := by cases s <;> exact Indexes.empty
  uncrossed s := by cases s <;> exact fun _ h => absurd h (List.not_mem_nil)
  bound s := by cases s <;> exact fun _ h => absurd h (List.not_mem_nil)
  incoming _ h := by cases h

end MatchingEngine
