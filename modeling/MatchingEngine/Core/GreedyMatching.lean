import MatchingEngine.Core.Cancellation
import MatchingEngine.Core.Crossing
import MatchingEngine.Core.Numbering
import MatchingEngine.Library.Greedy

/-!
# Matching is greedy in price-time priority

The contra side in priority order, as far as the limit of an incoming order reaches, is
a list of offers that the order walks along. The two nested loops emit exactly the
shares of this walk, and leave exactly what the shares do not take.
-/

namespace MatchingEngine

/-- The quantity that a resting order offers. -/
def RestingOrder.offer (o : RestingOrder) : ℤ := o.remainingQuantityLots.toInt

/-- A resting order of which a quantity was taken, if anything of it is left. -/
def RestingOrder.reduce (o : RestingOrder) (quantity : ℤ) : Option RestingOrder :=
  if quantity = o.offer then none
  else some { o with remainingQuantityLots := .ofInt (o.offer - quantity) }

/-- The longest prefix of the priority list whose prices a limit crosses. -/
def reached (contra : Side) (limit : Int64) (levels : List PriceLevel) : List RestingOrder :=
  (queued levels).takeWhile fun o => ¬ contra.Better limit o.priceTicks

/-- Contra order, contra price, quantity and incoming remainder of a trade. -/
def tradeTerms (event : ExecutionEventRecordV1) : UInt64 × Int64 × ℤ × ℤ :=
  (event.contraOrderId, event.priceTicks, event.quantityLots.toInt,
    event.remainingQuantityLots.toInt)

/-- Contra order, contra price, quantity and incoming remainder of a share. -/
def shareTerms (share : Share RestingOrder ℤ) : UInt64 × Int64 × ℤ × ℤ :=
  (share.item.orderId, share.item.priceTicks, share.quantity, share.left)

/-! ## What is left of the resting orders -/

theorem RestingOrder.offer_pos {o : RestingOrder} (h : 0 < o.remainingQuantityLots) :
    0 < o.offer := FixedWidth.pos_iff.mp h

/-- An order of which nothing was taken stays as it is. -/
theorem RestingOrder.reduce_zero {o : RestingOrder} (h : 0 < o.remainingQuantityLots) :
    o.reduce 0 = some o := by
  have hpos := offer_pos h
  unfold reduce
  rw [if_neg hpos.ne, sub_zero, offer, Int64.ofInt_toInt]

/-- A reduced order keeps its id. -/
theorem RestingOrder.orderId_of_reduce {o o' : RestingOrder} {quantity : ℤ}
    (h : o.reduce quantity = some o') : o'.orderId = o.orderId := by
  unfold reduce at h
  split at h
  · cases h
  · obtain rfl := Option.some.inj h
    rfl

/-- Orders of which nothing was taken stay as they are. -/
theorem filterMap_reduce_eq_self {queue : List RestingOrder}
    {shares : List (Share RestingOrder ℤ)} (hqueue : ∀ o ∈ queue, 0 < o.remainingQuantityLots)
    (htaken : ∀ o ∈ queue, taken shares o = 0) :
    queue.filterMap (fun o => o.reduce (taken shares o)) = queue := by
  have hsame : ∀ o ∈ queue, o.reduce (taken shares o) = some o := by
    intro o ho
    rw [htaken o ho, RestingOrder.reduce_zero (hqueue o ho)]
  rw [List.filterMap_congr hsame, List.filterMap_some]

/-- Levels of which nothing was taken stay as they are. -/
theorem reviseQueues_reduce_eq_self {s : Side} {levels : List PriceLevel}
    {shares : List (Share RestingOrder ℤ)} (hlevels : ∀ level ∈ levels, LevelOk s level)
    (htaken : ∀ o ∈ queued levels, taken shares o = 0) :
    reviseQueues (fun o => o.reduce (taken shares o)) levels = levels := by
  refine reviseQueues.eq_self (fun level hlevel => (hlevels level hlevel).nonempty) ?_
  intro level hlevel o ho
  rw [htaken o (mem_queued.mpr ⟨level, hlevel, ho⟩)]
  exact RestingOrder.reduce_zero ((hlevels level hlevel).order o ho).remaining

/-- The share of the front order changes the front order only. -/
theorem filterMap_reduce_cons {o : RestingOrder} {rest : List RestingOrder} {quantity left : ℤ}
    {shares : List (Share RestingOrder ℤ)} (ho : o ∉ rest) (hshares : taken shares o = 0) :
    (o :: rest).filterMap (fun a => a.reduce (taken (⟨o, quantity, left⟩ :: shares) a)) =
      (o.reduce quantity).toList ++ rest.filterMap fun a => a.reduce (taken shares a) := by
  have hfront : taken (⟨o, quantity, left⟩ :: shares) o = quantity := by
    rw [taken_cons, if_pos rfl, hshares, add_zero]
  have hrest : ∀ a ∈ rest, a.reduce (taken (⟨o, quantity, left⟩ :: shares) a) =
      a.reduce (taken shares a) := by
    intro a ha
    have hne : o ≠ a := fun heq => ho (heq ▸ ha)
    rw [taken_cons, if_neg hne, zero_add]
  rw [List.filterMap_cons, hfront, List.filterMap_congr hrest]
  cases o.reduce quantity <;> rfl

/-! ## The loops -/

/-- One iteration of the inner loop takes one share. The front order is reduced by it, and
if anything of it is left, the share was all that was left of the demand. -/
theorem fillFront_share (command : OrderCommandRecordV1) (o : RestingOrder) {vars : MatchVars}
    (hincoming : 0 < vars.incomingRemaining) (ho : 0 < o.remainingQuantityLots) {demand : ℤ}
    (hdemand : vars.incomingRemaining.toInt = demand) :
    (fillFront command o.priceTicks o vars).vars.incomingRemaining.toInt =
        demand - min demand o.offer ∧
      tradeTerms (fillFront command o.priceTicks o vars).event =
        shareTerms ⟨o, min demand o.offer, demand - min demand o.offer⟩ ∧
      if (fillFront command o.priceTicks o vars).restingOrder.remainingQuantityLots = 0 then
        o.reduce (min demand o.offer) = none
      else
        o.reduce (min demand o.offer) =
            some (fillFront command o.priceTicks o vars).restingOrder ∧
          demand - min demand o.offer = 0 := by
  obtain ⟨-, hleft, hresting, -, -⟩ := fillFront_exact command o.priceTicks vars hincoming ho
  have hmin : (min vars.incomingRemaining o.remainingQuantityLots).toInt = min demand o.offer := by
    rw [FixedWidth.toInt_min, hdemand, RestingOrder.offer]
  rw [hmin] at hleft hresting
  rw [hdemand] at hleft
  change _ = o.offer - min demand o.offer at hresting
  refine ⟨hleft, ?_, ?_⟩
  · rw [shareTerms, ← hleft, ← hmin]
    rfl
  · split
    · rename_i hgone
      rw [hgone, Int64.toInt_zero] at hresting
      exact if_pos (sub_eq_zero.mp hresting.symm).symm
    · rename_i hkept
      have hpart : min demand o.offer ≠ o.offer := by
        intro hfull
        rw [hfull, sub_self] at hresting
        exact hkept (FixedWidth.eq_zero_iff.mpr hresting)
      constructor
      · unfold RestingOrder.reduce
        rw [if_neg hpart, ← hresting, Int64.ofInt_toInt]
        rfl
      · rw [(min_choice demand o.offer).resolve_right hpart, sub_self]

/-- The inner loop serves the incoming order greedily from the queue. -/
theorem matchQueue_greedy (command : OrderCommandRecordV1) {priceTicks : Int64}
    {queue : List RestingOrder} (hnodup : queue.Nodup)
    (hprice : ∀ o ∈ queue, o.priceTicks = priceTicks)
    (hqueue : ∀ o ∈ queue, 0 < o.remainingQuantityLots) (vars : MatchVars) {demand : ℤ}
    (hdemand : vars.incomingRemaining.toInt = demand) :
    (matchQueue command priceTicks queue vars).vars.incomingRemaining.toInt =
        greedyLeft RestingOrder.offer demand queue ∧
      (matchQueue command priceTicks queue vars).events.map tradeTerms =
        (greedyShares RestingOrder.offer demand queue).map shareTerms ∧
      (matchQueue command priceTicks queue vars).left =
        queue.filterMap fun o =>
          o.reduce (taken (greedyShares RestingOrder.offer demand queue) o) := by
  induction queue generalizing vars demand with
  | nil => exact ⟨hdemand, rfl, rfl⟩
  | cons o rest ih =>
    obtain ⟨hfresh, hrestNodup⟩ := List.nodup_cons.mp hnodup
    obtain ⟨rfl, hrestPrice⟩ := List.forall_mem_cons.mp hprice
    obtain ⟨ho, hrest⟩ := List.forall_mem_cons.mp hqueue
    simp only [matchQueue]
    by_cases hincoming : 0 < vars.incomingRemaining
    · have hpos : 0 < demand := by rwa [← hdemand, ← FixedWidth.pos_iff]
      obtain ⟨hleft, hterms, hreduced⟩ := fillFront_share command o hincoming ho hdemand
      have hnone : taken (greedyShares RestingOrder.offer (demand - min demand o.offer) rest) o =
          0 := taken_greedyShares_of_notMem hfresh
      rw [greedyShares_cons hpos, greedyLeft_cons hpos, filterMap_reduce_cons hfresh hnone,
        List.map_cons, ← hterms]
      simp only [if_pos hincoming]
      by_cases hgone :
          (fillFront command o.priceTicks o vars).restingOrder.remainingQuantityLots = 0
      · rw [if_pos hgone] at hreduced
        simp only [if_pos hgone]
        obtain ⟨hnextLeft, hnextEvents, hnextQueue⟩ := ih hrestNodup hrestPrice hrest
          ((fillFront command o.priceTicks o vars).vars.dropOrder
            (fillFront command o.priceTicks o vars).restingOrder.orderId) hleft
        rw [hreduced, hnextQueue, List.map_cons, hnextEvents]
        exact ⟨hnextLeft, rfl, rfl⟩
      · rw [if_neg hgone] at hreduced
        obtain ⟨hkept, hdone⟩ := hreduced
        simp only [if_neg hgone]
        rw [hdone] at hleft
        rw [hdone, greedyShares_of_le le_rfl, greedyLeft_of_le le_rfl, hkept,
          filterMap_reduce_eq_self hrest fun _ _ => taken_nil]
        exact ⟨hleft, rfl, rfl⟩
    · have hle : demand ≤ 0 := by
        rw [FixedWidth.pos_iff, hdemand] at hincoming
        exact not_lt.mp hincoming
      simp only [if_neg hincoming]
      rw [greedyShares_of_le hle, greedyLeft_of_le hle,
        filterMap_reduce_eq_self hqueue fun _ _ => taken_nil]
      exact ⟨hdemand, rfl, rfl⟩

/-- A limit that reaches a level reaches its whole queue and whatever it reaches behind it. -/
theorem reached_cons_of_crosses {contra : Side} {limit : Int64} {level : PriceLevel}
    {worse : List PriceLevel} (hprice : ∀ o ∈ level.2, o.priceTicks = level.1)
    (hcross : ¬ contra.Better limit level.1) :
    reached contra limit (level :: worse) = level.2 ++ reached contra limit worse := by
  unfold reached
  rw [queued_cons, List.takeWhile_append_of_pos]
  intro o ho
  rw [hprice o ho]
  exact decide_eq_true hcross

/-- A limit that does not reach the best price reaches nothing. -/
theorem reached_cons_of_not_crosses {contra : Side} {limit : Int64} {level : PriceLevel}
    {worse : List PriceLevel} (hnonempty : level.2 ≠ [])
    (hprice : ∀ o ∈ level.2, o.priceTicks = level.1) (hcross : contra.Better limit level.1) :
    reached contra limit (level :: worse) = [] := by
  obtain ⟨o, rest, hqueue⟩ := List.exists_cons_of_ne_nil hnonempty
  have ho : o.priceTicks = level.1 := hprice o (hqueue ▸ List.mem_cons_self)
  unfold reached
  rw [queued_cons, hqueue, List.cons_append, List.takeWhile_cons_of_neg]
  rw [ho]
  simpa using hcross

/-- The prices that a limit reaches come first. -/
theorem reached_isPrefix (contra : Side) (limit : Int64) (levels : List PriceLevel) :
    reached contra limit levels <+: queued levels := List.takeWhile_prefix _

/-- The outer loop serves the incoming order greedily from the orders its limit reaches. -/
theorem matchLevels_greedy (command : OrderCommandRecordV1) {contra : Side}
    {levels : List PriceLevel} (hlevels : ∀ level ∈ levels, LevelOk contra level)
    (hnodup : (queued levels).Nodup) (vars : MatchVars) {demand : ℤ}
    (hdemand : vars.incomingRemaining.toInt = demand) :
    (matchLevels command contra levels vars).vars.incomingRemaining.toInt =
        greedyLeft RestingOrder.offer demand (reached contra command.priceTicks levels) ∧
      (matchLevels command contra levels vars).events.map tradeTerms =
        (greedyShares RestingOrder.offer demand
          (reached contra command.priceTicks levels)).map shareTerms ∧
      (matchLevels command contra levels vars).left =
        reviseQueues (fun o => o.reduce (taken (greedyShares RestingOrder.offer demand
          (reached contra command.priceTicks levels)) o)) levels := by
  induction levels generalizing vars demand with
  | nil => exact ⟨hdemand, rfl, rfl⟩
  | cons level worse ih =>
    obtain ⟨price, queue⟩ := level
    obtain ⟨hlevel, hworse⟩ := List.forall_mem_cons.mp hlevels
    obtain ⟨hqueueNodup, hworseNodup, hdisjoint⟩ := List.nodup_append'.mp hnodup
    have hprice : ∀ o ∈ queue, o.priceTicks = price := fun o ho => (hlevel.order o ho).price
    simp only [matchLevels]
    by_cases hincoming : 0 < vars.incomingRemaining
    · by_cases hcross : contra.Better command.priceTicks price
      · simp only [if_pos hincoming, if_pos hcross]
        rw [reached_cons_of_not_crosses hlevel.nonempty hprice hcross, greedyShares_nil,
          greedyLeft_nil, reviseQueues_reduce_eq_self hlevels fun _ _ => taken_nil]
        exact ⟨hdemand, rfl, rfl⟩
      · simp only [if_pos hincoming, if_neg hcross]
        obtain ⟨hinnerLeft, hinnerEvents, hinnerQueue⟩ := matchQueue_greedy command hqueueNodup
          hprice (fun o ho => (hlevel.order o ho).remaining) vars hdemand
        -- the shares of the queue take nothing from the worse levels and conversely
        have hqueue : ∀ o ∈ queue, o ∉ reached contra command.priceTicks worse :=
          fun o ho hmem => hdisjoint ho ((reached_isPrefix _ _ _).subset hmem)
        have hothers : ∀ o ∈ queued worse, o ∉ queue := fun o ho hmem => hdisjoint hmem ho
        have hrevised : reviseQueues (fun o => o.reduce (taken
              (greedyShares RestingOrder.offer demand queue ++
                greedyShares RestingOrder.offer (greedyLeft RestingOrder.offer demand queue)
                  (reached contra command.priceTicks worse)) o)) ((price, queue) :: worse) =
            consLevel price (matchQueue command price queue vars).left
              (reviseQueues (fun o => o.reduce (taken
                (greedyShares RestingOrder.offer (greedyLeft RestingOrder.offer demand queue)
                  (reached contra command.priceTicks worse)) o)) worse) := by
          rw [reviseQueues_cons, hinnerQueue]
          congr 1
          · refine List.filterMap_congr fun o ho => ?_
            rw [taken_append, taken_greedyShares_of_notMem (hqueue o ho), add_zero]
          · refine reviseQueues.congr fun entry hentry o ho => ?_
            have hmem : o ∈ queued worse := mem_queued.mpr ⟨entry, hentry, ho⟩
            rw [taken_append, taken_greedyShares_of_notMem (hothers o hmem), zero_add]
        rw [reached_cons_of_crosses hprice hcross, greedyShares_append, greedyLeft_append,
          hrevised, List.map_append, ← hinnerEvents]
        by_cases hempty : (matchQueue command price queue vars).left = []
        · obtain ⟨hleft, hevents, hqueues⟩ := ih hworse hworseNodup
            (matchQueue command price queue vars).vars hinnerLeft
          simp only [hempty, List.isEmpty_nil, if_true, List.map_append]
          rw [hevents, hqueues]
          exact ⟨hleft, rfl, rfl⟩
        · have hdone : greedyLeft RestingOrder.offer demand queue ≤ 0 := by
            rw [← hinnerLeft, ← Int64.toInt_zero]
            exact Int64.le_iff_toInt_le.mp (matchQueue_exit hempty)
          simp only [List.isEmpty_iff, hempty, if_false]
          rw [greedyShares_of_le hdone, greedyLeft_of_le hdone,
            reviseQueues_reduce_eq_self hworse fun _ _ => taken_nil, consLevel, if_neg hempty]
          exact ⟨hinnerLeft, (List.append_nil _).symm, rfl⟩
    · have hle : demand ≤ 0 := by
        rw [FixedWidth.pos_iff, hdemand] at hincoming
        exact not_lt.mp hincoming
      simp only [if_neg hincoming]
      rw [greedyShares_of_le hle, greedyLeft_of_le hle,
        reviseQueues_reduce_eq_self hlevels fun _ _ => taken_nil]
      exact ⟨hdemand, rfl, rfl⟩

/-! ## New orders -/

/-- The shares of a new order: it walks along the contra orders that its limit reaches. -/
def OrderBook.shares (book : OrderBook) (command : OrderCommandRecordV1) :
    List (Share RestingOrder ℤ) :=
  greedyShares RestingOrder.offer command.quantityLots.toInt
    (reached (incomingSide command).opposite command.priceTicks
      (book.levels (incomingSide command).opposite))

/-- What is left of a new order behind the contra orders that its limit reaches. -/
def OrderBook.leftover (book : OrderBook) (command : OrderCommandRecordV1) : ℤ :=
  greedyLeft RestingOrder.offer command.quantityLots.toInt
    (reached (incomingSide command).opposite command.priceTicks
      (book.levels (incomingSide command).opposite))

/-- A resting order after a new order has taken its shares. -/
def OrderBook.reduced (book : OrderBook) (command : OrderCommandRecordV1) (o : RestingOrder) :
    Option RestingOrder :=
  o.reduce (taken (book.shares command) o)

/-- The queued orders of both sides are pairwise different. -/
theorem Moment.WellFormed.queued_nodup {m : Moment} (hm : m.WellFormed) (s : Side) :
    (queued (m.levels s) ++ queued (m.levels s.opposite)).Nodup := (hm.indexed s).nodup.of_map

/-- Nothing is taken from the orders of the own side. -/
theorem OrderBook.reduced_own {book : OrderBook} (hbook : book.moment.WellFormed)
    {command : OrderCommandRecordV1} {o : RestingOrder}
    (ho : o ∈ queued (book.levels (incomingSide command))) :
    book.reduced command o = some o := by
  have hdisjoint := (List.nodup_append'.mp (hbook.queued_nodup (incomingSide command))).2.2
  have hnot : o ∉ reached (incomingSide command).opposite command.priceTicks
      (book.levels (incomingSide command).opposite) :=
    fun hmem => hdisjoint ho ((reached_isPrefix _ _ _).subset hmem)
  obtain ⟨level, hlevel, ho⟩ := mem_queued.mp ho
  unfold reduced shares
  rw [taken_greedyShares_of_notMem hnot]
  exact RestingOrder.reduce_zero ((hbook.level _ level hlevel).order o ho).remaining

/-- A book that has matched a new order and not yet settled what is left of it. -/
structure MatchedGreedily (book : OrderBook) (command : OrderCommandRecordV1)
    (remaining : Int64) (trades : List ExecutionEventRecordV1) (matched : OrderBook) : Prop where
  /-- The loop ends with the leftover. -/
  remaining : remaining.toInt = book.leftover command
  /-- The trades are the shares. -/
  terms : trades.map tradeTerms = (book.shares command).map shareTerms
  /-- The contra side is reduced by the shares. -/
  contra : matched.levels (incomingSide command).opposite =
    reviseQueues (book.reduced command) (book.levels (incomingSide command).opposite)
  /-- The own side is the old one. -/
  own : matched.levels (incomingSide command) = book.levels (incomingSide command)
  /-- The index is reduced by the shares. -/
  index : ∀ orderId, matched.activeOrders.lookup orderId =
    (book.activeOrders.lookup orderId).bind (book.reduced command)

/-- Matching a valid order on a well-formed book is greedy. -/
theorem NewOrderValid.matchedGreedily {book : OrderBook} {command : OrderCommandRecordV1}
    (hbook : book.moment.WellFormed) (hvalid : NewOrderValid book command) :
    MatchedGreedily book command ((book.acceptIncoming command).2.matchIncoming command).1
      ((book.acceptIncoming command).2.matchIncoming command).2.1
      ((book.acceptIncoming command).2.matchIncoming command).2.2 := by
  obtain ⟨s, hside⟩ := hvalid.side
  obtain rfl : incomingSide command = s := incomingSide_eq hside
  have hstart := hvalid.accept_step.wellFormed hbook
  have hlevels : (book.acceptIncoming command).2.levels = book.levels :=
    congrArg Moment.levels (hvalid.acceptIncoming_eq none).2
  have hwf := ((book.acceptIncoming command).2.matchIncoming_steps hside
    fun level hlevel => (hstart.level _ level hlevel).nonempty).wellFormed hstart
  obtain ⟨hremaining, hmoment⟩ := (book.acceptIncoming command).2.matchIncoming_moment hside
  have hevents := (book.acceptIncoming command).2.matchIncoming_events hside
  rw [hlevels] at hremaining hmoment hevents
  have hdemand : ((book.acceptIncoming command).2.matchVars command).incomingRemaining.toInt =
      command.quantityLots.toInt := rfl
  obtain ⟨hleft, hterms, hqueues⟩ := matchLevels_greedy command
    (hbook.level (incomingSide command).opposite)
    (List.nodup_append'.mp (hbook.queued_nodup (incomingSide command))).2.1 _ hdemand
  have hcontra : ((book.acceptIncoming command).2.matchIncoming command).2.2.levels
      (incomingSide command).opposite =
      reviseQueues (book.reduced command) (book.levels (incomingSide command).opposite) := by
    have h := congrArg (fun m => m.levels (incomingSide command).opposite) hmoment
    simp only [Moment.withMatch_levels, Function.update_self] at h
    exact h.trans hqueues
  have hown : ((book.acceptIncoming command).2.matchIncoming command).2.2.levels
      (incomingSide command) = book.levels (incomingSide command) := by
    have h := congrArg (fun m => m.levels (incomingSide command)) hmoment
    simp only [Moment.withMatch_levels,
      Function.update_of_ne (incomingSide command).opposite_ne.symm] at h
    exact h.trans (congrFun hlevels _)
  refine ⟨hremaining ▸ hleft, hevents ▸ hterms, hcontra, hown, fun orderId => ?_⟩
  have hbefore := hbook.indexed (incomingSide command)
  have hafter := hwf.indexed (incomingSide command)
  change Indexes RestingOrder.orderId
    ((book.acceptIncoming command).2.matchIncoming command).2.2.activeOrders
    (queued (((book.acceptIncoming command).2.matchIncoming command).2.2.levels _) ++
      queued (((book.acceptIncoming command).2.matchIncoming command).2.2.levels _)) at hafter
  have hkept : (queued (book.levels (incomingSide command))).filterMap (book.reduced command) =
      queued (book.levels (incomingSide command)) := by
    rw [List.filterMap_congr fun o ho => OrderBook.reduced_own hbook ho, List.filterMap_some]
  rw [hown, hcontra, queued, queued, reviseQueues.flatMap_snd] at hafter
  change Indexes _ _ (queued _ ++ (queued _).filterMap _) at hafter
  rw [← hkept, ← List.filterMap_append] at hafter
  exact hbefore.lookup_filterMap hafter (fun o o' h => RestingOrder.orderId_of_reduce h) orderId

/-- An order joins the back of its price: the queue of the price, which may be empty, gets
one more order, and the better and the worse levels stay as they are. -/
def JoinsBack (s : Side) (o : RestingOrder) (before after : List PriceLevel) : Prop :=
  ∃ better queue worse,
    before = better ++ consLevel o.priceTicks queue worse ∧
    after = better ++ (o.priceTicks, queue ++ [o]) :: worse ∧
    (∀ level ∈ better, s.Better level.1 o.priceTicks) ∧
    ∀ level ∈ worse, s.Better o.priceTicks level.1

/-- Resting an order on proper levels lets it join the back of its price. -/
theorem joinsBack_upsertEntries {s : Side} {levels : List PriceLevel}
    (hsorted : levels.Pairwise (fun a b => s.Better a.1 b.1))
    (hnonempty : ∀ level ∈ levels, level.2 ≠ []) (o : RestingOrder) :
    JoinsBack s o levels
      (OrderedMap.upsertEntries s.Better o.priceTicks [] (· ++ [o]) levels) := by
  obtain ⟨better, worse, hbetter, hworse, hcase⟩ :=
    OrderedMap.upsertEntries_split s.Better o.priceTicks [] (· ++ [o]) hsorted
  rcases hcase with ⟨-, heq, hupsert⟩ | ⟨queue, -, heq, hupsert⟩
  · exact ⟨better, [], worse, by rw [heq, consLevel, if_pos rfl], hupsert, hbetter, hworse⟩
  · have hqueue : queue ≠ [] := hnonempty (o.priceTicks, queue)
      (heq ▸ List.mem_append_right _ List.mem_cons_self)
    exact ⟨better, queue, worse, by rw [heq, consLevel, if_neg hqueue], hupsert, hbetter, hworse⟩

/-- What becomes of a new order that has matched: it is gone when nothing is left of it, and
else it rests with what is left. -/
structure SettledGreedily (book : OrderBook) (command : OrderCommandRecordV1)
    (settled : OrderBook) : Prop where
  /-- The contra side is reduced by the shares. -/
  contra : settled.levels (incomingSide command).opposite =
    reviseQueues (book.reduced command) (book.levels (incomingSide command).opposite)
  /-- The own side gets what is left. -/
  own : if book.leftover command = 0 then
      settled.levels (incomingSide command) = book.levels (incomingSide command)
    else JoinsBack (incomingSide command) (restingOrderOf command (.ofInt (book.leftover command)))
      (book.levels (incomingSide command)) (settled.levels (incomingSide command))
  /-- The index changes in the same way. -/
  index : ∀ orderId, settled.activeOrders.lookup orderId =
    if orderId = command.orderId then
      if book.leftover command = 0 then none
      else some (restingOrderOf command (.ofInt (book.leftover command)))
    else (book.activeOrders.lookup orderId).bind (book.reduced command)

/-- Settling a valid order that was matched greedily. -/
theorem MatchedGreedily.settle {book matched : OrderBook} {command : OrderCommandRecordV1}
    {remaining : Int64} {trades : List ExecutionEventRecordV1}
    (hmatched : MatchedGreedily book command remaining trades matched)
    (hbook : book.moment.WellFormed) (hvalid : NewOrderValid book command) :
    SettledGreedily book command (matched.settleIncoming command remaining).2 := by
  obtain ⟨s, hside⟩ := hvalid.side
  obtain rfl : incomingSide command = s := incomingSide_eq hside
  obtain ⟨hremaining, -, hcontra, hown, hindex⟩ := hmatched
  have hfresh : book.activeOrders.lookup command.orderId = none :=
    Finmap.lookup_eq_none.mpr hvalid.new
  by_cases hzero : remaining = 0
  · have hleft : book.leftover command = 0 := by rw [← hremaining, hzero, Int64.toInt_zero]
    have hlevels : (matched.settleIncoming command remaining).2.levels = matched.levels := by
      unfold OrderBook.settleIncoming
      rw [if_pos hzero]
      funext t
      cases t <;> rfl
    have hactive : (matched.settleIncoming command remaining).2.activeOrders =
        matched.activeOrders := by
      unfold OrderBook.settleIncoming
      rw [if_pos hzero]
    refine ⟨by rw [hlevels, hcontra], by rw [if_pos hleft, hlevels, hown], fun orderId => ?_⟩
    rw [hactive, hindex]
    by_cases heq : orderId = command.orderId
    · rw [if_pos heq, if_pos hleft, heq, hfresh, Option.bind_none]
    · rw [if_neg heq]
  · have hleft : book.leftover command ≠ 0 := by
      rw [← hremaining]
      exact fun h => hzero (FixedWidth.eq_zero_iff.mpr h)
    have hrested : Int64.ofInt (book.leftover command) = remaining := by
      rw [← hremaining, Int64.ofInt_toInt]
    have hmoment := matched.restOrder_moment hside remaining
    rw [matched.settleIncoming_of_ne_zero command hzero]
    have hlevels := congrArg Moment.levels hmoment
    have hactive := congrArg Moment.activeOrders hmoment
    rw [Moment.afterRest_levels] at hlevels
    refine ⟨?_, ?_, fun orderId => ?_⟩
    · refine (congrFun hlevels _).trans ?_
      rw [Function.update_of_ne (incomingSide command).opposite_ne]
      exact hcontra
    · have hafter := congrFun hlevels (incomingSide command)
      rw [Function.update_self] at hafter
      change _ = OrderedMap.upsertEntries _ _ _ _ (matched.levels _) at hafter
      rw [hown] at hafter
      rw [if_neg hleft, hrested]
      refine hafter.symm.subst
        (motive := JoinsBack _ (restingOrderOf command remaining) (book.levels _)) ?_
      exact joinsBack_upsertEntries (hbook.sorted (incomingSide command))
        (fun level hlevel => (hbook.level _ level hlevel).nonempty)
        (restingOrderOf command remaining)
    · rw [if_neg hleft, hrested]
      refine (congrArg (Finmap.lookup orderId) hactive).trans ?_
      change (matched.activeOrders.insert command.orderId _).lookup orderId = _
      by_cases heq : orderId = command.orderId
      · rw [if_pos heq, heq, Finmap.lookup_insert]
      · rw [if_neg heq, Finmap.lookup_insert_of_ne _ heq, hindex]

/-- A valid new order is answered by its acceptance, its trades and one more event. -/
theorem NewOrderValid.applyNewOrder_eq {book : OrderBook} {command : OrderCommandRecordV1}
    (hvalid : NewOrderValid book command) :
    book.applyNewOrder command =
      ((book.acceptIncoming command).1 ::
          ((book.acceptIncoming command).2.matchIncoming command).2.1 ++
        (((book.acceptIncoming command).2.matchIncoming command).2.2.settleIncoming command
          ((book.acceptIncoming command).2.matchIncoming command).1).1,
        (((book.acceptIncoming command).2.matchIncoming command).2.2.settleIncoming command
          ((book.acceptIncoming command).2.matchIncoming command).1).2) := by
  have hnone := (book.validateNewOrder_eq_none_iff command).mpr hvalid
  unfold OrderBook.applyNewOrder
  rw [if_neg (not_not.mpr hnone)]
  rfl

/-- The matching loops emit trades. -/
theorem OrderBook.isTrade_of_mem_matchIncoming {book : OrderBook} {command : OrderCommandRecordV1}
    {event : ExecutionEventRecordV1} (h : event ∈ (book.matchIncoming command).2.1) :
    event.IsTrade := by
  rw [← matchEmissions_events] at h
  obtain ⟨e, he, rfl⟩ := List.mem_map.mp h
  exact levelEmissions_isTrade he

/-- The settlement is one event and not a trade. -/
theorem OrderBook.settleIncoming_event (book : OrderBook) (command : OrderCommandRecordV1)
    (remaining : Int64) :
    ∃ last, (book.settleIncoming command remaining).1 = [last] ∧ ¬ last.IsTrade := by
  by_cases hzero : remaining = 0
  · unfold settleIncoming
    rw [if_pos hzero]
    exact ⟨_, rfl, not_isTrade_of_eventType .orderFullyFilled rfl (by decide)⟩
  · rw [settleIncoming_of_ne_zero _ _ hzero]
    refine ⟨_, rfl, not_isTrade_of_eventType _ rfl ?_⟩
    split <;> decide

/-- The trades among the events of a valid new order are those of the matching loops. -/
theorem NewOrderValid.tradesOf_applyNewOrder {book : OrderBook} {command : OrderCommandRecordV1}
    (hvalid : NewOrderValid book command) :
    tradesOf (book.applyNewOrder command).1 =
      ((book.acceptIncoming command).2.matchIncoming command).2.1 := by
  obtain ⟨last, hlast, hnot⟩ := OrderBook.settleIncoming_event
    ((book.acceptIncoming command).2.matchIncoming command).2.2 command
    ((book.acceptIncoming command).2.matchIncoming command).1
  have haccepted : ¬ (book.acceptIncoming command).1.IsTrade :=
    not_isTrade_of_eventType .orderAccepted rfl (by decide)
  have htrades : ∀ event ∈ ((book.acceptIncoming command).2.matchIncoming command).2.1,
      decide event.IsTrade = true :=
    fun event hevent => decide_eq_true (OrderBook.isTrade_of_mem_matchIncoming hevent)
  rw [hvalid.applyNewOrder_eq, hlast]
  simp only [tradesOf, List.cons_append, List.filter_cons, List.filter_append,
    List.filter_eq_self.mpr htrades, decide_eq_true_eq, haccepted, hnot, if_false,
    List.filter_nil, List.append_nil]

/-- A new order that passes validation is executed greedily in price-time priority. -/
theorem new_order_is_greedy (firstEventSequence : UInt64) (earlier : List OrderCommandRecordV1)
    (command : OrderCommandRecordV1)
    (hvalid : ((InstrumentEngine.create firstEventSequence).applyAll
      earlier).2.orderBook.validateNewOrder command = .none) :
    let book := ((InstrumentEngine.create firstEventSequence).applyAll earlier).2.orderBook
    let applied := book.applyNewOrder command
    (tradesOf applied.1).map tradeTerms = (book.shares command).map shareTerms ∧
      (∀ share ∈ (book.shares command).dropLast, share.quantity = share.item.offer) ∧
      SettledGreedily book command applied.2 := by
  intro book applied
  have hwf := (InstrumentEngine.reachable_applyAll firstEventSequence earlier).wellFormed
  change book.moment.WellFormed at hwf
  have hnew : NewOrderValid book command := (book.validateNewOrder_eq_none_iff command).mp hvalid
  have hmatched := hnew.matchedGreedily hwf
  refine ⟨?_, greedyShares_dropLast_full, ?_⟩
  · rw [hnew.tradesOf_applyNewOrder]
    exact hmatched.terms
  · change SettledGreedily book command (book.applyNewOrder command).2
    rw [hnew.applyNewOrder_eq]
    exact hmatched.settle hwf hnew

/-- A buy order sweeps one sell order and takes a part of the next. -/
theorem new_order_is_greedy_sweep :
    (tradesOf (((InstrumentEngine.create 1).applyAll
      [{ orderId := 1, instrumentId := 7, priceTicks := 10, quantityLots := 5, commandType := 1,
         side := 2, timeInForce := 1 },
       { orderId := 2, instrumentId := 7, priceTicks := 11, quantityLots := 5, commandType := 1,
         side := 2, timeInForce := 1 }]).2.orderBook.applyNewOrder
      { orderId := 3, instrumentId := 7, priceTicks := 12, quantityLots := 7, commandType := 1,
        side := 1, timeInForce := 1 }).1).map tradeTerms = [(1, 10, 5, 2), (2, 11, 2, 0)] := by
  have h := (new_order_is_greedy 1
    [{ orderId := 1, instrumentId := 7, priceTicks := 10, quantityLots := 5, commandType := 1,
       side := 2, timeInForce := 1 },
     { orderId := 2, instrumentId := 7, priceTicks := 11, quantityLots := 5, commandType := 1,
       side := 2, timeInForce := 1 }]
    { orderId := 3, instrumentId := 7, priceTicks := 12, quantityLots := 7, commandType := 1,
      side := 1, timeInForce := 1 } (by decide)).1
  exact h.trans (by decide)

end MatchingEngine
