import MatchingEngine.Core.CommandSteps
import MatchingEngine.Library.Chronology

/-!
# Price-time priority

The rest time of an order is the number of the event that put it into the book.
Along the priority list of a side prices get worse, and rest times increase at
equal prices. The invariant ties the queues to the event history, so it outlives
partial fills, cancellations and the removal and re-creation of levels.
-/

namespace MatchingEngine

/-- The event puts the order into the book. -/
def ExecutionEventRecordV1.Rests (event : ExecutionEventRecordV1) (orderId : UInt64) : Prop :=
  (event.eventType = ExecutionEventType.orderRested.code ∨
    event.eventType = ExecutionEventType.orderPartiallyFilled.code) ∧ event.orderId = orderId

instance (event : ExecutionEventRecordV1) (orderId : UInt64) : Decidable (event.Rests orderId) :=
  inferInstanceAs (Decidable (_ ∧ _))

/-- The event that last put the order into the book, with its number when the
events are counted from the first event sequence without wrapping. -/
def restEvent (firstEventSequence : UInt64) (history : List ExecutionEventRecordV1)
    (orderId : UInt64) : Option (ExecutionEventRecordV1 × ℕ) :=
  lastNumbered (fun event => event.Rests orderId) firstEventSequence.toNat history

/-- The number of the event that last put the order into the book. -/
def restTime (firstEventSequence : UInt64) (history : List ExecutionEventRecordV1)
    (orderId : UInt64) : Option ℕ := (restEvent firstEventSequence history orderId).map Prod.snd

/-- On its side the first order has priority over the second: its price is better,
or the prices are equal and it has been resting for longer. -/
def Ahead (firstEventSequence : UInt64) (history : List ExecutionEventRecordV1) (s : Side)
    (a b : RestingOrder) : Prop :=
  s.Better a.priceTicks b.priceTicks ∨
    a.priceTicks = b.priceTicks ∧
      ∃ ta tb, restTime firstEventSequence history a.orderId = some ta ∧
        restTime firstEventSequence history b.orderId = some tb ∧ ta < tb

/-- What an order keeps while it waits: everything but its remaining quantity. -/
def RestingOrder.place (o : RestingOrder) : RestingOrder := { o with remainingQuantityLots := 0 }

/-- The queues of a moment follow the event history. -/
structure Prioritized (firstEventSequence : UInt64) (history : List ExecutionEventRecordV1)
    (m : Moment) : Prop where
  /-- The events are numbered consecutively from the first event sequence. -/
  numbered : ∀ j event, history[j]? = some event →
    event.eventSequence = UInt64.ofNat (firstEventSequence.toNat + j)
  /-- The next event gets the next number. -/
  next : m.counters.nextEventSequence =
    UInt64.ofNat (firstEventSequence.toNat + history.length)
  /-- Every queued order was announced at its price and on its side. -/
  announced : ∀ s, ∀ o ∈ queued (m.levels s), ∃ event t,
    restEvent firstEventSequence history o.orderId = some (event, t) ∧
      event.priceTicks = o.priceTicks ∧ event.side = o.side
  /-- The priority list of a side is sorted by priority. -/
  ordered : ∀ s, (queued (m.levels s)).Pairwise (Ahead firstEventSequence history s)

/-! ## What an emission does to the priority lists -/

/-- Priority is asymmetric. -/
theorem Ahead.asymm {first : UInt64} {history : List ExecutionEventRecordV1} {s : Side}
    (a b : RestingOrder) (hab : Ahead first history s a b) : ¬ Ahead first history s b a := by
  rintro hba
  rcases hab with hab | ⟨hprice, ta, tb, hta, htb, hlt⟩
  · rcases hba with hba | ⟨hprice, -⟩
    · exact asymm_of s.Better hab hba
    · rw [hprice] at hab
      exact irrefl _ hab
  · rcases hba with hba | ⟨-, tb', ta', htb', hta', hlt'⟩
    · rw [hprice] at hba
      exact irrefl _ hba
    · rw [hta] at hta'
      rw [htb] at htb'
      cases hta'
      cases htb'
      omega

/-- An event that does not put the order into the book leaves its rest time alone. -/
theorem restEvent_concat_of_not_rests {event : ExecutionEventRecordV1} {orderId : UInt64}
    (h : ¬ event.Rests orderId) (first : UInt64) (history : List ExecutionEventRecordV1) :
    restEvent first (history ++ [event]) orderId = restEvent first history orderId :=
  lastNumbered_concat_of_neg (fun event : ExecutionEventRecordV1 => event.Rests orderId) h _ _

/-- An event that puts the order into the book sets its rest time. -/
theorem restEvent_concat_of_rests {event : ExecutionEventRecordV1} {orderId : UInt64}
    (h : event.Rests orderId) (first : UInt64) (history : List ExecutionEventRecordV1) :
    restEvent first (history ++ [event]) orderId =
      some (event, first.toNat + history.length) :=
  lastNumbered_concat_of_pos (fun event : ExecutionEventRecordV1 => event.Rests orderId) h _ _

/-- A moment in which a command has just been cancelled has lost exactly one
order of its priority list. -/
theorem Moment.WellFormed.cancel_queued {m : Moment} (hm : m.WellFormed)
    (command : OrderCommandRecordV1) {orderId : UInt64} {o : RestingOrder} {s : Side}
    (hactive : m.activeOrders.lookup orderId = some o) (hside : decodeSide o.side = some s) :
    ∃ ahead behind, queued (m.levels s) = ahead ++ o :: behind ∧
      queued ((m.afterCancel command s o).levels s) = ahead ++ behind := by
  obtain ⟨before, ahead, behind, after, hsplit, hbefore, hafter, hahead⟩ := hm.locate hactive hside
  refine ⟨queued before ++ ahead, behind ++ queued after, ?_, ?_⟩
  · rw [hsplit]
    simp
  · rw [afterCancel_levels, Function.update_self, hsplit, erasedEntries_eq hbefore hafter hahead]
    simp

/-- The announcement of a resting remainder puts the order into the book. -/
theorem emitRestEvent_rests (counters : EmissionCounters) (command : OrderCommandRecordV1)
    (remaining : Int64) :
    (emitRestEvent counters command remaining).1.Rests command.orderId := by
  refine ⟨?_, rfl⟩
  change (if _ then ExecutionEventType.orderPartiallyFilled else _).code = _ ∨
    (if _ then ExecutionEventType.orderPartiallyFilled else _).code = _
  split
  · exact Or.inr rfl
  · exact Or.inl rfl

/-- Only the resting emission puts an order into the book. -/
theorem EmissionStep.rest_of_rests {m m' : Moment} {e : Emission} (hstep : EmissionStep m e m')
    {orderId : UInt64} (hrests : e.event.Rests orderId) :
    ∃ command remaining s, m.incoming = some ⟨command, remaining⟩ ∧ command.orderId = orderId ∧
      decodeSide command.side = some s ∧ m' = m.afterRest command s remaining ∧
      e.event = (emitRestEvent m.counters command remaining).1 := by
  have hnot : ∀ t : ExecutionEventType, e.event.eventType = t.code →
      t = .orderRested ∨ t = .orderPartiallyFilled := by
    intro t ht
    rcases hrests.1 with h | h
    · exact Or.inl (ExecutionEventType.code_injective (ht.symm.trans h))
    · exact Or.inr (ExecutionEventType.code_injective (ht.symm.trans h))
  cases hstep with
  | reject => rcases hnot .orderRejected rfl with h | h <;> cases h
  | cancel => rcases hnot .orderCancelled rfl with h | h <;> cases h
  | accept => rcases hnot .orderAccepted rfl with h | h <;> cases h
  | trade => rcases hnot .tradeExecuted rfl with h | h <;> cases h
  | fill => rcases hnot .orderFullyFilled rfl with h | h <;> cases h
  | rest hincoming hside => exact ⟨_, _, _, hincoming, hrests.2, hside, rfl, rfl⟩

/-- An emission that rests no order only takes orders out of the priority lists
and reduces quantities. -/
theorem EmissionStep.places_sublist {m m' : Moment} {e : Emission} (hstep : EmissionStep m e m')
    (hm : m.WellFormed) (hrests : ∀ orderId, ¬ e.event.Rests orderId) (s : Side) :
    ((queued (m'.levels s)).map RestingOrder.place).Sublist
      ((queued (m.levels s)).map RestingOrder.place) := by
  cases hstep with
  | reject | accept | fill => exact List.Sublist.refl _
  | @cancel command o t hidle hactive hside =>
    rcases t.eq_or_eq_opposite s with rfl | rfl
    · obtain ⟨ahead, behind, hbefore, hafter⟩ := hm.cancel_queued command hactive hside
      rw [hbefore, hafter]
      exact (List.Sublist.append_left (List.sublist_cons_self _ _) _).map _
    · rw [Moment.afterCancel_levels, Function.update_of_ne t.opposite_ne]
  | @trade command remaining t priceTicks o rest worse hincoming hside hremaining hlevels hcross =>
    rcases t.eq_or_eq_opposite s with rfl | rfl
    · rw [Moment.withMatch_levels, Function.update_of_ne s.opposite_ne.symm]
    · rw [Moment.withMatch_levels, Function.update_self, queued_levelsAfterFill, hlevels,
        queued_cons]
      split
      · exact (List.sublist_cons_self _ _).map _
      · exact List.Sublist.refl _
  | @rest command remaining t hincoming hside hremaining hcross =>
    exact absurd (emitRestEvent_rests m.counters command remaining) (hrests command.orderId)

/-- A resting emission adds one new order to the priority list of its side, behind
every order of a better price or of the same price. -/
theorem EmissionStep.rested_queued {m m' : Moment} {e : Emission} (hstep : EmissionStep m e m')
    (hm : m.WellFormed) {orderId : UInt64} (hrests : e.event.Rests orderId) :
    orderId ∉ m.activeOrders ∧
      ∃ s o, o.orderId = orderId ∧ o.priceTicks = e.event.priceTicks ∧ o.side = e.event.side ∧
        queued (m'.levels s.opposite) = queued (m.levels s.opposite) ∧
        ∃ ahead behind, queued (m.levels s) = ahead ++ behind ∧
          queued (m'.levels s) = ahead ++ o :: behind ∧
          (∀ a ∈ ahead, s.Better a.priceTicks o.priceTicks ∨ a.priceTicks = o.priceTicks) ∧
          ∀ b ∈ behind, s.Better o.priceTicks b.priceTicks := by
  obtain ⟨command, remaining, s, hincoming, rfl, hside, rfl, hevent⟩ := hstep.rest_of_rests hrests
  obtain ⟨ahead, behind, hold, hnew, hahead, hbehind⟩ :=
    queued_upsertEntries (hm.sorted s) (hm.price_eq s) (restingOrderOf command remaining)
  refine ⟨(hm.incoming _ hincoming).new, s, restingOrderOf command remaining, rfl, ?_, ?_, ?_,
    ahead, behind, hold, ?_, hahead, hbehind⟩
  · rw [hevent]
    rfl
  · rw [hevent]
    rfl
  · rw [Moment.afterRest_levels, Function.update_of_ne s.opposite_ne]
  · rw [Moment.afterRest_levels, Function.update_self]
    exact hnew

/-! ## The invariant -/

/-- Queued orders are active. -/
theorem Moment.WellFormed.active_of_queued {m : Moment} (hm : m.WellFormed) {s : Side}
    {o : RestingOrder} (ho : o ∈ queued (m.levels s)) : o.orderId ∈ m.activeOrders :=
  Finmap.mem_iff.mpr ⟨o, hm.lookup_of_queued ho⟩

/-- Priority depends on the places and on the rest times only. -/
theorem ahead_congr {first : UInt64} {history history' : List ExecutionEventRecordV1} {s : Side}
    {a b : RestingOrder}
    (ha : restEvent first history' a.orderId = restEvent first history a.orderId)
    (hb : restEvent first history' b.orderId = restEvent first history b.orderId) :
    Ahead first history' s a b ↔ Ahead first history s a b := by
  unfold Ahead restTime
  rw [ha, hb]

/-- The numbering part of the invariant survives every emission. -/
theorem Prioritized.concat_numbered {first : UInt64} {history : List ExecutionEventRecordV1}
    {m m' : Moment} {e : Emission} (hm : Prioritized first history m)
    (hstep : EmissionStep m e m') :
    (∀ j event, (history ++ [e.event])[j]? = some event →
        event.eventSequence = UInt64.ofNat (first.toNat + j)) ∧
      m'.counters.nextEventSequence =
        UInt64.ofNat (first.toNat + (history ++ [e.event]).length) := by
  obtain ⟨hevent, hnext⟩ := hstep.eventSequence
  refine ⟨fun j event hj => ?_, ?_⟩
  · rcases lt_trichotomy j history.length with hlt | rfl | hgt
    · rw [List.getElem?_append_left hlt] at hj
      exact hm.numbered j event hj
    · rw [List.getElem?_concat_length] at hj
      rw [← Option.some.inj hj, hevent, hm.next]
    · rw [List.getElem?_eq_none (by simp; omega)] at hj
      cases hj
  · rw [hnext, hm.next, List.length_append, List.length_singleton, ← Nat.add_assoc,
      UInt64.ofNat_add (_ + _)]
    rfl

/-- Orders that keep their places keep their announcements and their priority. -/
theorem Prioritized.of_places_sublist {first : UInt64} {history : List ExecutionEventRecordV1}
    {m m' : Moment} {e : Emission} (hm : Prioritized first history m) (hstep : EmissionStep m e m')
    (hrests : ∀ orderId, ¬ e.event.Rests orderId)
    (hplaces : ∀ s, ((queued (m'.levels s)).map RestingOrder.place).Sublist
      ((queued (m.levels s)).map RestingOrder.place)) :
    Prioritized first (history ++ [e.event]) m' := by
  have hrest : ∀ orderId, restEvent first (history ++ [e.event]) orderId =
      restEvent first history orderId :=
    fun orderId => restEvent_concat_of_not_rests (hrests orderId) first history
  obtain ⟨hnumbered, hnext⟩ := hm.concat_numbered hstep
  refine ⟨hnumbered, hnext, fun s o ho => ?_, fun s => ?_⟩
  · obtain ⟨old, hold, hplace⟩ := List.mem_map.mp ((hplaces s).subset (List.mem_map_of_mem ho))
    obtain ⟨event, t, hevent, hprice, hside⟩ := hm.announced s old hold
    have hid : old.orderId = o.orderId := congrArg (fun p => p.orderId) hplace
    have hprice' : old.priceTicks = o.priceTicks := congrArg (fun p => p.priceTicks) hplace
    have hside' : old.side = o.side := congrArg (fun p => p.side) hplace
    rw [hrest, ← hid]
    exact ⟨event, t, hevent, hprice.trans hprice', hside.trans hside'⟩
  · have hold : ((queued (m.levels s)).map RestingOrder.place).Pairwise (Ahead first history s) :=
      List.pairwise_map.mpr (hm.ordered s)
    have hnew := List.pairwise_map.mp (hold.sublist (hplaces s))
    exact hnew.imp fun {a b} hab => (ahead_congr (hrest a.orderId) (hrest b.orderId)).mpr hab

/-- A new order joins the priority list with the latest rest time. -/
theorem Prioritized.of_rests {first : UInt64} {history : List ExecutionEventRecordV1}
    {m m' : Moment} {e : Emission} (hm : Prioritized first history m) (hwf : m.WellFormed)
    (hstep : EmissionStep m e m') {orderId : UInt64} (hrests : e.event.Rests orderId) :
    Prioritized first (history ++ [e.event]) m' := by
  obtain ⟨hnew, s, o, rfl, hprice, hside, hother, ahead, behind, hold, hqueue, hahead, hbehind⟩ :=
    hstep.rested_queued hwf hrests
  obtain ⟨hnumbered, hnext⟩ := hm.concat_numbered hstep
  have hkept : ∀ t, ∀ a ∈ queued (m.levels t),
      restEvent first (history ++ [e.event]) a.orderId = restEvent first history a.orderId := by
    intro t a ha
    refine restEvent_concat_of_not_rests (fun h => hnew ?_) first history
    rw [← hrests.2, h.2]
    exact hwf.active_of_queued ha
  have ho := restEvent_concat_of_rests hrests first history
  have hordered : ∀ t, (queued (m.levels t)).Pairwise (Ahead first (history ++ [e.event]) t) :=
    fun t => (hm.ordered t).imp_of_mem fun ha hb hab =>
      (ahead_congr (hkept t _ ha) (hkept t _ hb)).mpr hab
  have hannounced : ∀ t, ∀ a ∈ queued (m.levels t), ∃ event time,
      restEvent first (history ++ [e.event]) a.orderId = some (event, time) ∧
        event.priceTicks = a.priceTicks ∧ event.side = a.side := by
    intro t a ha
    rw [hkept t a ha]
    exact hm.announced t a ha
  refine ⟨hnumbered, hnext, fun t => ?_, fun t => ?_⟩
  · rcases s.eq_or_eq_opposite t with rfl | rfl
    · rw [hqueue]
      intro a ha
      rcases List.mem_append.mp ha with ha | ha
      · exact hannounced t a (hold ▸ List.mem_append_left _ ha)
      · rcases List.mem_cons.mp ha with rfl | ha
        · exact ⟨e.event, _, ho, hprice.symm, hside.symm⟩
        · exact hannounced t a (hold ▸ List.mem_append_right _ ha)
    · rw [hother]
      exact hannounced s.opposite
  · rcases s.eq_or_eq_opposite t with rfl | rfl
    · have hsorted := hordered t
      rw [hold] at hsorted
      obtain ⟨hsortedAhead, hsortedBehind, hcross⟩ := List.pairwise_append.mp hsorted
      have hfront : ∀ a ∈ ahead, Ahead first (history ++ [e.event]) t a o := by
        intro a ha
        rcases hahead a ha with hbetter | heq
        · exact Or.inl hbetter
        · have hmem : a ∈ queued (m.levels t) := hold ▸ List.mem_append_left _ ha
          obtain ⟨event, ta, hta, -, -⟩ := hm.announced t a hmem
          have hlt := lastNumbered_lt _ hta
          have hta' := (hkept t a hmem).trans hta
          refine Or.inr ⟨heq, ta, first.toNat + history.length, ?_, ?_, hlt⟩
          · exact congrArg (Option.map Prod.snd) hta'
          · exact congrArg (Option.map Prod.snd) ho
      rw [hqueue, List.pairwise_append, List.pairwise_cons]
      refine ⟨hsortedAhead, ⟨fun b hb => Or.inl (hbehind b hb), hsortedBehind⟩, ?_⟩
      intro a ha b hb
      rcases List.mem_cons.mp hb with rfl | hb
      · exact hfront a ha
      · exact hcross a ha b hb
    · rw [hother]
      exact hordered s.opposite

/-- Every emission from a well-formed moment keeps the queues in priority order. -/
theorem EmissionStep.prioritized {first : UInt64} {history : List ExecutionEventRecordV1}
    {m m' : Moment} {e : Emission} (hstep : EmissionStep m e m') (hwf : m.WellFormed)
    (hm : Prioritized first history m) : Prioritized first (history ++ [e.event]) m' := by
  by_cases hrests : ∃ orderId, e.event.Rests orderId
  · obtain ⟨orderId, hrests⟩ := hrests
    exact hm.of_rests hwf hstep hrests
  · have hnone : ∀ orderId, ¬ e.event.Rests orderId := not_exists.mp hrests
    exact hm.of_places_sublist hstep hnone (hstep.places_sublist hwf hnone)

/-- An empty book is in priority order. -/
theorem OrderBook.prioritized_create (first : UInt64) :
    Prioritized first [] (OrderBook.create first).moment where
  numbered j event h := by cases h
  next := (UInt64.ofNat_toNat).symm
  announced s := by cases s <;> exact fun _ h => absurd h List.not_mem_nil
  ordered s := by cases s <;> exact List.Pairwise.nil

/-! ## Trades -/

/-- An active order is queued on one of the sides. -/
theorem Moment.WellFormed.queued_of_active {m : Moment} (hm : m.WellFormed) {orderId : UInt64}
    (hactive : orderId ∈ m.activeOrders) :
    ∃ s, ∃ o ∈ queued (m.levels s), o.orderId = orderId := by
  obtain ⟨o, ho, hid⟩ := (hm.indexed .buy).mem_iff.mp hactive
  rcases List.mem_append.mp ho with ho | ho
  · exact ⟨.buy, o, ho, hid⟩
  · exact ⟨.sell, o, ho, hid⟩

/-- The side number of a queued order names the side it is queued on. -/
theorem Moment.WellFormed.side_of_queued {m : Moment} (hm : m.WellFormed) {s : Side}
    {o : RestingOrder} (ho : o ∈ queued (m.levels s)) : o.side = s.code := by
  obtain ⟨level, hlevel, ho⟩ := mem_queued.mp ho
  exact ((hm.level s level hlevel).order o ho).side

/-- The order a trade is made with has priority over every other active order of
its side. -/
theorem Prioritized.front_ahead {first : UInt64} {history : List ExecutionEventRecordV1}
    {m : Moment} (hm : Prioritized first history m) (hwf : m.WellFormed) {s : Side}
    {priceTicks : Int64} {front : RestingOrder} {rest : List RestingOrder}
    {worse : List PriceLevel} (hlevels : m.levels s = (priceTicks, front :: rest) :: worse)
    {orderId : UInt64} {o : RestingOrder} (hlookup : m.activeOrders.lookup orderId = some o)
    (hne : orderId ≠ front.orderId) (hside : o.side = s.code) : Ahead first history s front o := by
  have hordered := hm.ordered s
  have hmem := (hwf.indexed s).mem_of_lookup hlookup
  have hown : o ∈ queued (m.levels s) := by
    rcases List.mem_append.mp hmem with h | h
    · exact h
    · exact absurd (Side.code_injective ((hwf.side_of_queued h).symm.trans hside)) s.opposite_ne
  rw [hlevels, queued_cons, List.cons_append] at hordered hown
  rcases List.mem_cons.mp hown with rfl | hown
  · exact absurd ((hwf.indexed s).key_of_lookup hlookup).symm hne
  · exact List.rel_of_pairwise_cons hordered hown

/-- A trade is made at the own price of the active contra order that has priority over all
others of its side, within the limit of the incoming order. -/
theorem EmissionStep.trade_prioritized {first : UInt64} {history : List ExecutionEventRecordV1}
    {m m' : Moment} {e : Emission} (hstep : EmissionStep m e m') (hwf : m.WellFormed)
    (hm : Prioritized first history m)
    (htype : e.event.eventType = ExecutionEventType.tradeExecuted.code) :
    ∃ (s : Side) (contra : RestingOrder) (t : ℕ), e.event.side = s.code ∧
      e.activeOrders.lookup e.event.contraOrderId = some contra ∧
      contra.side = s.opposite.code ∧
      e.event.priceTicks = contra.priceTicks ∧
      (s = .buy → e.event.priceTicks ≤ e.command.priceTicks) ∧
      (s = .sell → e.command.priceTicks ≤ e.event.priceTicks) ∧
      restTime first history contra.orderId = some t ∧
      ∀ orderId o, e.activeOrders.lookup orderId = some o →
        orderId ≠ e.event.contraOrderId → o.side = s.opposite.code →
        Ahead first history s.opposite contra o := by
  obtain ⟨command, remaining, s, priceTicks, front, rest, worse, -, hside, -, hlevels, hcross,
    rfl⟩ := hstep.trade_of_eventType htype
  have hfront := hwf.front hlevels
  obtain ⟨event, t, hrest, -, -⟩ := hm.announced s.opposite front (by simp [hlevels])
  refine ⟨s, (fillFront command priceTicks front (m.vars remaining)).restingOrder, t,
    decodeSide_eq_some_iff.mp hside, Finmap.lookup_insert _, hfront.side, hfront.price.symm,
    ?_, ?_, congrArg (Option.map Prod.snd) hrest, ?_⟩
  · rintro rfl
    exact not_lt.mp hcross
  · rintro rfl
    exact not_lt.mp hcross
  · intro orderId o hlookup hne ho
    have hne' : orderId ≠ front.orderId := hne
    change (m.activeOrders.insert front.orderId _).lookup orderId = some o at hlookup
    rw [Finmap.lookup_insert_of_ne _ hne'] at hlookup
    exact hm.front_ahead hwf hlevels hlookup hne' ho

/-! ## Runs -/

/-- Every emission of a run keeps the queues in priority order. -/
theorem EmissionStep.prioritized_concat {first : UInt64} {es : List Emission} {m m' : Moment}
    {e : Emission} (hstep : EmissionStep m e m') (hwf : m.WellFormed)
    (hm : Prioritized first (es.map Emission.event) m) :
    Prioritized first ((es ++ [e]).map Emission.event) m' := by
  rw [List.map_append]
  exact hstep.prioritized hwf hm

/-- The queues follow the events of every run. -/
theorem InstrumentEngine.applyAll_prioritized (first : UInt64)
    (commands : List OrderCommandRecordV1) :
    Prioritized first ((create first).applyAll commands).1
      ((create first).applyAll commands).2.orderBook.moment := by
  rw [← emissionsAll_events]
  exact applyAll_preserves (P := fun es m => Prioritized first (es.map Emission.event) m)
    (fun hstep hwf hm => hstep.prioritized_concat hwf hm) first (OrderBook.prioritized_create first)
    commands

/-! ## The orders that stay -/

/-- In a moment in priority order two queued orders stand in the order of their priority. -/
theorem Prioritized.pair_iff {first : UInt64} {history : List ExecutionEventRecordV1}
    {m : Moment} (hm : Prioritized first history m) (hwf : m.WellFormed) {s : Side}
    {a b : RestingOrder} (ha : a ∈ queued (m.levels s)) (hb : b ∈ queued (m.levels s)) :
    List.Sublist [a.orderId, b.orderId] ((queued (m.levels s)).map RestingOrder.orderId) ↔
      Ahead first history s a b := by
  have hnodup := (hwf.indexed s).nodup
  rw [List.map_append] at hnodup
  exact pair_keys_sublist_iff Ahead.asymm (hm.ordered s) (List.nodup_append.mp hnodup).1 ha hb

/-- Two queued orders with one id and one announcement have the same side and price. -/
theorem Prioritized.same_place {first : UInt64} {history history' : List ExecutionEventRecordV1}
    {m m' : Moment} (hm : Prioritized first history m) (hm' : Prioritized first history' m')
    (hwf : m.WellFormed) (hwf' : m'.WellFormed) {s s' : Side} {o o' : RestingOrder}
    (ho : o ∈ queued (m.levels s)) (ho' : o' ∈ queued (m'.levels s'))
    (hevent : restEvent first history' o'.orderId = restEvent first history o.orderId) :
    s' = s ∧ o'.priceTicks = o.priceTicks := by
  obtain ⟨event, t, hrest, hprice, hside⟩ := hm.announced s o ho
  obtain ⟨event', t', hrest', hprice', hside'⟩ := hm'.announced s' o' ho'
  rw [hevent, hrest] at hrest'
  cases hrest'
  refine ⟨Side.code_injective ?_, hprice'.symm.trans hprice⟩
  rw [← hwf'.side_of_queued ho', ← hside', hside, hwf.side_of_queued ho]

/-- The ids of a side in priority order. -/
def OrderBook.priorityIds (book : OrderBook) (s : Side) : List UInt64 :=
  (queued (book.levels s)).map RestingOrder.orderId

/-- An order that is active in both books and was not put into the book by an
event in between has stayed. -/
structure Stayed (before after : OrderBook) (events : List ExecutionEventRecordV1)
    (orderId : UInt64) : Prop where
  /-- It was active. -/
  before : orderId ∈ before.activeOrders
  /-- It is still active. -/
  after : orderId ∈ after.activeOrders
  /-- It did not join again in between. -/
  kept : ∀ event ∈ events, ¬ event.Rests orderId

/-- An order that stayed is queued on one side, at one price, before and after. -/
theorem Stayed.places {before after : OrderBook} {events history : List ExecutionEventRecordV1}
    {first : UInt64} {orderId : UInt64} (hstayed : Stayed before after events orderId)
    (hbefore : Prioritized first history before.moment)
    (hafter : Prioritized first (history ++ events) after.moment)
    (hwfBefore : before.moment.WellFormed) (hwfAfter : after.moment.WellFormed) :
    ∃ s, ∃ o ∈ queued (before.levels s), ∃ o' ∈ queued (after.levels s),
      o.orderId = orderId ∧ o'.orderId = orderId ∧ o'.priceTicks = o.priceTicks ∧
      restEvent first (history ++ events) orderId = restEvent first history orderId := by
  obtain ⟨s, o, ho, hid⟩ := hwfBefore.queued_of_active hstayed.before
  obtain ⟨s', o', ho', hid'⟩ := hwfAfter.queued_of_active hstayed.after
  have hrest : restEvent first (history ++ events) orderId = restEvent first history orderId :=
    lastNumbered_append_of_forall_not (fun event : ExecutionEventRecordV1 => event.Rests orderId)
      hstayed.kept _ _
  obtain ⟨rfl, hprice⟩ := hbefore.same_place hafter hwfBefore hwfAfter ho ho'
    (by rw [hid, hid', hrest])
  exact ⟨s', o, ho, o', ho', hid, hid', hprice, hrest⟩

/-- Two orders that stayed keep their relative order. -/
theorem Stayed.pair_iff {before after : OrderBook} {events history : List ExecutionEventRecordV1}
    {first : UInt64} {a b : UInt64} (ha : Stayed before after events a)
    (hb : Stayed before after events b) (hbefore : Prioritized first history before.moment)
    (hafter : Prioritized first (history ++ events) after.moment)
    (hwfBefore : before.moment.WellFormed) (hwfAfter : after.moment.WellFormed) (s : Side) :
    List.Sublist [a, b] (before.priorityIds s) ↔ List.Sublist [a, b] (after.priorityIds s) := by
  obtain ⟨sa, oa, hoa, oa', hoa', rfl, hida, hpricea, hresta⟩ :=
    ha.places hbefore hafter hwfBefore hwfAfter
  obtain ⟨sb, ob, hob, ob', hob', rfl, hidb, hpriceb, hrestb⟩ :=
    hb.places hbefore hafter hwfBefore hwfAfter
  -- An id is queued on no side but its own, so both sides of the claim are false elsewhere.
  have hside : ∀ {book : OrderBook} {t : Side} {o : RestingOrder}, book.moment.WellFormed →
      o ∈ queued (book.levels t) → o.orderId ∈ book.priorityIds s → s = t := by
    intro book t o hwf ho hmem
    obtain ⟨x, hx, hid⟩ := List.mem_map.mp hmem
    have hindexed := hwf.indexed s
    have hmemo : o ∈ queued (book.levels s) ++ queued (book.levels s.opposite) := by
      rcases s.eq_or_eq_opposite t with rfl | rfl
      · exact List.mem_append_left _ ho
      · exact List.mem_append_right _ ho
    have hxo : x = o := hindexed.eq_of_key_eq (List.mem_append_left _ hx) hmemo hid
    subst hxo
    exact Side.code_injective ((hwf.side_of_queued hx).symm.trans (hwf.side_of_queued ho))
  have hahead : ∀ t, Ahead first (history ++ events) t oa' ob' ↔ Ahead first history t oa ob := by
    intro t
    unfold Ahead restTime
    rw [hpricea, hpriceb, hida, hidb, hresta, hrestb]
  constructor
  · intro h
    obtain rfl := hside hwfBefore hoa (h.subset (by simp))
    obtain rfl := hside hwfBefore hob (h.subset (by simp))
    have hpair := (hbefore.pair_iff hwfBefore hoa hob).mp h
    have hafterPair := (hafter.pair_iff hwfAfter hoa' hob').mpr ((hahead s).mpr hpair)
    rwa [hida, hidb] at hafterPair
  · intro h
    rw [← hida, ← hidb] at h
    obtain rfl := hside hwfAfter hoa' (h.subset (by simp))
    obtain rfl := hside hwfAfter hob' (h.subset (by simp))
    have hpair := (hafter.pair_iff hwfAfter hoa' hob').mp h
    exact (hbefore.pair_iff hwfBefore hoa hob).mpr ((hahead s).mp hpair)

/-- Every trade of every run is made at the own price of the active contra order
that has priority over all others of its side, within the limit of the incoming
order; and orders that stay in the book never change their relative order. -/
theorem trades_follow_priority (firstEventSequence : UInt64)
    (earlier : List OrderCommandRecordV1) (command : OrderCommandRecordV1) :
    let before := (InstrumentEngine.create firstEventSequence).applyAll earlier
    let emissions := before.2.orderBook.emissions command
    emissions.map Emission.event = (before.2.apply command).1 ∧
      (∀ i e, emissions[i]? = some e →
        e.event.eventType = ExecutionEventType.tradeExecuted.code →
        let history := before.1 ++ (emissions.take i).map Emission.event
        (∀ j event, history[j]? = some event →
          event.eventSequence = UInt64.ofNat (firstEventSequence.toNat + j)) ∧
        ∃ (s : Side) (contra : RestingOrder) (t : ℕ), e.event.side = s.code ∧
          e.activeOrders.lookup e.event.contraOrderId = some contra ∧
          contra.side = s.opposite.code ∧
          e.event.priceTicks = contra.priceTicks ∧
          (s = .buy → e.event.priceTicks ≤ command.priceTicks) ∧
          (s = .sell → command.priceTicks ≤ e.event.priceTicks) ∧
          restTime firstEventSequence history contra.orderId = some t ∧
          ∀ orderId o, e.activeOrders.lookup orderId = some o →
            orderId ≠ e.event.contraOrderId → o.side = s.opposite.code →
            Ahead firstEventSequence history s.opposite contra o) ∧
      ∀ later,
        let after := before.2.applyAll later
        ∀ a b, Stayed before.2.orderBook after.2.orderBook after.1 a →
          Stayed before.2.orderBook after.2.orderBook after.1 b →
          ∀ s, List.Sublist [a, b] (before.2.orderBook.priorityIds s) ↔
            List.Sublist [a, b] (after.2.orderBook.priorityIds s) := by
  intro before emissions
  refine ⟨before.2.orderBook.emissions_events command, fun i e he htype => ?_,
    fun later => ?_⟩
  · intro history
    obtain ⟨m, m', hwf, hprio, hstep⟩ := InstrumentEngine.emission_step_at
      (P := fun es m => Prioritized firstEventSequence (es.map Emission.event) m)
      (fun hstep hwf hm => hstep.prioritized_concat hwf hm)
      firstEventSequence (OrderBook.prioritized_create firstEventSequence) earlier command he
    rw [List.map_append, InstrumentEngine.emissionsAll_events] at hprio
    have hlimit : e.command.priceTicks = command.priceTicks := by
      rcases OrderBook.emissions_command (List.mem_of_getElem? he) with h | h <;> rw [h]
      rfl
    refine ⟨hprio.numbered, ?_⟩
    rw [← hlimit]
    exact hstep.trade_prioritized hwf hprio htype
  · intro after a b ha hb s
    have hwfBefore := (InstrumentEngine.reachable_applyAll firstEventSequence earlier).wellFormed
    have hwfAfter :=
      (InstrumentEngine.reachable_applyAll firstEventSequence (earlier ++ later)).wellFormed
    have happend : (InstrumentEngine.create firstEventSequence).applyAll (earlier ++ later) =
        (before.1 ++ after.1, after.2) := engineMachine.run_append _ earlier later
    have hafter := InstrumentEngine.applyAll_prioritized firstEventSequence (earlier ++ later)
    rw [happend] at hafter hwfAfter
    exact ha.pair_iff hb (InstrumentEngine.applyAll_prioritized firstEventSequence earlier) hafter
      hwfBefore hwfAfter s

end MatchingEngine
