import MatchingEngine.Core.EventGrammar
import MatchingEngine.Library.Totals

/-!
# Orders and quantities over a run

Orders come in by acceptance and leave by trades and cancellations, and a trade takes the
same quantity from both sides. The events of a run therefore account for the orders in the
book and for their quantities, and there are never many more events than commands.
-/

namespace MatchingEngine

/-! ## Orders -/

/-- The number of events of a kind. -/
def eventCount (t : ExecutionEventType) (events : List ExecutionEventRecordV1) : ℕ :=
  events.countP fun event => event.eventType = t.code

theorem eventCount_append (t : ExecutionEventType) (events events' : List ExecutionEventRecordV1) :
    eventCount t (events ++ events') = eventCount t events + eventCount t events' :=
  List.countP_append

/-- One more event of a known kind. -/
theorem eventCount_concat {event : ExecutionEventRecordV1} {kind : ExecutionEventType}
    (hkind : event.eventType = kind.code) (t : ExecutionEventType)
    (events : List ExecutionEventRecordV1) :
    eventCount t (events ++ [event]) = eventCount t events + if kind = t then 1 else 0 := by
  rw [eventCount_append]
  unfold eventCount
  simp [List.countP_cons, hkind]

/-- Whether an order is being brought in. -/
def Moment.entering (m : Moment) : ℕ := if m.incoming.isSome then 1 else 0

/-- Whether an order is being brought in that still wants something. -/
def Moment.waiting (m : Moment) : ℕ :=
  match m.incoming with
  | none => 0
  | some incoming => if incoming.remaining = 0 then 0 else 1

/-- The events so far account for the orders at this moment. -/
structure OrdersAccounted (events : List ExecutionEventRecordV1) (m : Moment) : Prop where
  /-- There are events of seven kinds only. -/
  length : events.length = eventCount .orderAccepted events + eventCount .orderRejected events +
    eventCount .tradeExecuted events + eventCount .orderRested events +
    eventCount .orderPartiallyFilled events + eventCount .orderFullyFilled events +
    eventCount .orderCancelled events
  /-- Every acceptance has come to its end, except for the order being brought in. -/
  settled : eventCount .orderAccepted events = eventCount .orderRested events +
    eventCount .orderPartiallyFilled events + eventCount .orderFullyFilled events + m.entering
  /-- Every trade uses up an order. -/
  atLeast : eventCount .tradeExecuted events + eventCount .orderCancelled events +
    m.activeOrders.keys.card + m.waiting ≤ eventCount .orderAccepted events
  /-- No trade uses up more than two orders. -/
  atMost : eventCount .orderAccepted events ≤ 2 * eventCount .tradeExecuted events +
    eventCount .orderCancelled events + m.activeOrders.keys.card + m.waiting

/-- What the index after a trade adds up to. -/
theorem total_varsAfterFill {M : Type*} [AddCommMonoid M] (f : RestingOrder → M)
    (command : OrderCommandRecordV1) (priceTicks : Int64) {o : RestingOrder} {vars : MatchVars}
    (hlookup : vars.activeOrders.lookup o.orderId = some o) :
    let fill := fillFront command priceTicks o vars
    (varsAfterFill fill).activeOrders.total f + f o =
      vars.activeOrders.total f +
        if fill.restingOrder.remainingQuantityLots = 0 then 0 else f fill.restingOrder := by
  intro fill
  unfold varsAfterFill
  split
  · change (Finmap.erase o.orderId (vars.activeOrders.insert o.orderId _)).total f + f o = _
    rw [Finmap.erase_insert_self, Finmap.total_of_lookup hlookup, add_zero, add_comm]
  · exact Finmap.total_insert_of_lookup hlookup fill.restingOrder

/-- A trade that leaves its contra order uses up the incoming order. -/
theorem FillExact.incoming_eq_zero {remaining : Int64} {o : RestingOrder} {fill : Fill}
    (h : FillExact remaining o fill) (hleft : fill.restingOrder.remainingQuantityLots ≠ 0) :
    fill.vars.incomingRemaining = 0 := by
  have hmin := FixedWidth.toInt_min remaining o.remainingQuantityLots
  have hincoming := h.incoming
  have hresting := h.resting
  rw [ne_eq, FixedWidth.eq_zero_iff] at hleft
  rw [FixedWidth.eq_zero_iff]
  omega

/-- One more event keeps the account if the orders at the moment change as its kind says. -/
theorem OrdersAccounted.concat {events : List ExecutionEventRecordV1} {m m' : Moment}
    (h : OrdersAccounted events m) {event : ExecutionEventRecordV1} (kind : ExecutionEventType)
    (hkind : event.eventType = kind.code)
    (hentering : (if kind = .orderRested ∨ kind = .orderPartiallyFilled ∨
        kind = .orderFullyFilled then 1 else 0) + m'.entering =
      (if kind = .orderAccepted then 1 else 0) + m.entering)
    (hatLeast : (if kind = .tradeExecuted ∨ kind = .orderCancelled then 1 else 0) +
        m'.activeOrders.keys.card + m'.waiting ≤
      (if kind = .orderAccepted then 1 else 0) + m.activeOrders.keys.card + m.waiting)
    (hatMost : (if kind = .orderAccepted then 1 else 0) + m.activeOrders.keys.card + m.waiting ≤
      (if kind = .tradeExecuted then 2 else if kind = .orderCancelled then 1 else 0) +
        m'.activeOrders.keys.card + m'.waiting) :
    OrdersAccounted (events ++ [event]) m' := by
  have hlength := h.length
  have hsettled := h.settled
  have hleast := h.atLeast
  have hmost := h.atMost
  constructor
  all_goals
    simp only [eventCount_concat hkind, List.length_append, List.length_singleton]
    cases kind <;> simp at hentering hatLeast hatMost ⊢ <;> omega

/-- The active orders are counted in the index. -/
theorem card_varsAfterFill (command : OrderCommandRecordV1) (priceTicks : Int64)
    {o : RestingOrder} {vars : MatchVars} (hlookup : vars.activeOrders.lookup o.orderId = some o) :
    let fill := fillFront command priceTicks o vars
    (varsAfterFill fill).activeOrders.keys.card + 1 =
      vars.activeOrders.keys.card +
        if fill.restingOrder.remainingQuantityLots = 0 then 0 else 1 := by
  intro fill
  rw [Finmap.card_keys, Finmap.card_keys]
  exact total_varsAfterFill (fun _ => 1) command priceTicks hlookup

/-- The events account for the orders after every kind of emission. -/
theorem EmissionStep.ordersAccounted {events : List ExecutionEventRecordV1} {m m' : Moment}
    {e : Emission} (hstep : EmissionStep m e m') (hwf : m.WellFormed)
    (h : OrdersAccounted events m) : OrdersAccounted (events ++ [e.event]) m' := by
  cases hstep with
  | reject command reason hidle =>
    refine h.concat .orderRejected rfl ?_ ?_ ?_ <;> simp [Moment.entering, Moment.waiting]
  | @cancel command o s hidle hactive hside =>
    have hkey := (hwf.indexed s).key_of_lookup hactive
    have hcard : m.activeOrders.keys.card = (m.activeOrders.erase o.orderId).keys.card + 1 := by
      rw [hkey, Finmap.card_keys, Finmap.card_keys, Finmap.total_of_lookup hactive, add_comm]
    refine h.concat .orderCancelled rfl ?_ ?_ ?_
    · simp only [reduceCtorEq, or_self, if_false, Nat.zero_add]
      rfl
    · simp [Moment.waiting, Moment.afterCancel, hcard, add_comm]
    · simp [Moment.waiting, Moment.afterCancel, hcard, add_comm]
  | @accept command s hidle hside hprice hquantity hnew hinstrument =>
    have hne : command.quantityLots ≠ 0 := fun h => absurd hquantity (by rw [h]; decide)
    refine h.concat .orderAccepted rfl ?_ ?_ ?_ <;>
      simp [Moment.entering, Moment.waiting, hidle, hne, add_comm]
  | @trade command remaining s priceTicks o rest worse hincoming hside hremaining hlevels hcross =>
    have hlookup : (m.vars remaining).activeOrders.lookup o.orderId = some o :=
      hwf.lookup_front hlevels
    have hexact := fillFront_exact command priceTicks (m.vars remaining) hremaining
      (hwf.front hlevels).remaining
    have hcard := card_varsAfterFill command priceTicks hlookup
    have hused := hexact.incoming_eq_zero
    have hne : remaining ≠ 0 := fun h => absurd hremaining (by rw [h]; decide)
    have hwaiting : m.waiting = 1 := by simp [Moment.waiting, hincoming, hne]
    have hsame : (m.vars remaining).activeOrders.keys.card = m.activeOrders.keys.card := rfl
    generalize fillFront command priceTicks o (m.vars remaining) = fill at hcard hused ⊢
    have hwaiting' : (m.withMatch command s.opposite (levelsAfterFill fill priceTicks rest worse)
        (varsAfterFill fill)).waiting = if fill.vars.incomingRemaining = 0 then 0 else 1 := by
      simp [Moment.waiting, Moment.withMatch]
    have hactive' : (m.withMatch command s.opposite (levelsAfterFill fill priceTicks rest worse)
        (varsAfterFill fill)).activeOrders = (varsAfterFill fill).activeOrders := rfl
    refine h.concat .tradeExecuted rfl ?_ ?_ ?_
    · simp [Moment.entering, Moment.withMatch, hincoming]
    all_goals
      dsimp only at hcard
      rw [hwaiting, hwaiting', hactive']
      simp only [reduceCtorEq, or_false, if_true, if_false]
      by_cases hleft : fill.restingOrder.remainingQuantityLots = 0
      · rw [if_pos hleft] at hcard
        split_ifs <;> omega
      · rw [if_neg hleft] at hcard
        rw [if_pos (hused hleft)]
        omega
  | @fill command hincoming =>
    refine h.concat .orderFullyFilled rfl ?_ ?_ ?_ <;>
      simp [Moment.entering, Moment.waiting, hincoming]
  | @rest command remaining s hincoming hside hremaining hcross =>
    have hnew : command.orderId ∉ m.activeOrders := (hwf.incoming _ hincoming).new
    have hcard : (m.activeOrders.insert command.orderId
        (restingOrderOf command remaining)).keys.card = m.activeOrders.keys.card + 1 := by
      rw [Finmap.card_keys, Finmap.card_keys, Finmap.total_insert_of_notMem hnew, add_comm]
    by_cases hwhole : remaining = command.quantityLots
    · have hkind : (emitRestEvent m.counters command remaining).1.eventType =
          ExecutionEventType.orderRested.code := by simp [emitRestEvent, emitOrderEvent, hwhole]
      refine h.concat _ hkind ?_ ?_ ?_ <;>
        simp [Moment.entering, Moment.waiting, Moment.afterRest, hincoming, hremaining, hcard]
    · have hkind : (emitRestEvent m.counters command remaining).1.eventType =
          ExecutionEventType.orderPartiallyFilled.code := by
        simp [emitRestEvent, emitOrderEvent, hwhole]
      refine h.concat _ hkind ?_ ?_ ?_ <;>
        simp [Moment.entering, Moment.waiting, Moment.afterRest, hincoming, hremaining, hcard]

/-- Nothing has happened yet. -/
theorem ordersAccounted_create (firstEventSequence : UInt64) :
    OrdersAccounted [] (OrderBook.create firstEventSequence).moment :=
  ⟨rfl, rfl, le_rfl, le_rfl⟩

/-- The events of a run account for the orders in the book. -/
theorem InstrumentEngine.applyAll_ordersAccounted (firstEventSequence : UInt64)
    (commands : List OrderCommandRecordV1) :
    OrdersAccounted ((create firstEventSequence).applyAll commands).1
      ((create firstEventSequence).applyAll commands).2.orderBook.moment := by
  rw [← emissionsAll_events]
  refine applyAll_preserves (P := fun es m => OrdersAccounted (es.map Emission.event) m)
    (fun hstep hwf h => ?_) firstEventSequence (ordersAccounted_create firstEventSequence) commands
  rw [List.map_append, List.map_singleton]
  exact hstep.ordersAccounted hwf h

/-! ## Events and commands -/

/-- Events of one kind are not counted under another. -/
theorem eventCount_eq_zero {events : List ExecutionEventRecordV1} {kind t : ExecutionEventType}
    (hkind : ∀ event ∈ events, event.eventType = kind.code) (hne : kind ≠ t) :
    eventCount t events = 0 := by
  unfold eventCount
  rw [List.countP_eq_zero]
  intro event hevent
  rw [hkind event hevent]
  simpa using hne

theorem eventCount_cons {event : ExecutionEventRecordV1} {kind : ExecutionEventType}
    (hkind : event.eventType = kind.code) (t : ExecutionEventType)
    (events : List ExecutionEventRecordV1) :
    eventCount t (event :: events) = eventCount t events + if kind = t then 1 else 0 := by
  unfold eventCount
  simp [List.countP_cons, hkind]

/-- An answer to an accepted order accepts once and refuses nothing. -/
theorem AnswersAccepted.counts {events : List ExecutionEventRecordV1} {quantity : ℤ}
    {orderId : UInt64} {after : OrderBook} (h : AnswersAccepted events quantity orderId after) :
    eventCount .orderAccepted events = 1 ∧ eventCount .orderRejected events = 0 := by
  obtain ⟨accepted, trades, last, rfl, hanswer, -⟩ := h
  have htrades : ∀ event ∈ trades, event.eventType = ExecutionEventType.tradeExecuted.code := by
    intro event hevent
    obtain ⟨k, hk⟩ := List.getElem?_of_mem hevent
    exact (hanswer.trade k event hk).1
  obtain ⟨kind, hlast, haccepted, hrejected⟩ : ∃ kind : ExecutionEventType,
      last.eventType = kind.code ∧ kind ≠ .orderAccepted ∧ kind ≠ .orderRejected := by
    rcases hanswer.ending with ⟨-, h⟩ | ⟨-, h⟩ | ⟨-, -, -, h⟩
    · exact ⟨_, h.kind, by decide, by decide⟩
    · exact ⟨_, h.kind, by decide, by decide⟩
    · exact ⟨_, h.kind, by decide, by decide⟩
  rw [List.cons_append, eventCount_cons hanswer.accepted.kind, eventCount_concat hlast,
    eventCount_cons hanswer.accepted.kind, eventCount_concat hlast,
    eventCount_eq_zero htrades (by decide), eventCount_eq_zero htrades (by decide),
    if_neg haccepted, if_neg hrejected]
  exact ⟨rfl, rfl⟩

/-- An answer of any form accepts or refuses once at most, and says something. -/
theorem AnswerForm.Describes.counts {command : OrderCommandRecordV1}
    {events : List ExecutionEventRecordV1} {after : OrderBook} {form : AnswerForm}
    (h : form.Describes command events after) :
    eventCount .orderAccepted events + eventCount .orderRejected events ≤ 1 ∧
      1 ≤ events.length := by
  cases form with
  | rejected =>
    obtain ⟨event, rfl, hkind⟩ := h
    rw [eventCount_cons hkind, eventCount_cons hkind]
    exact ⟨le_rfl, le_rfl⟩
  | cancelled =>
    obtain ⟨-, event, rfl, hkind⟩ := h
    rw [eventCount_cons hkind, eventCount_cons hkind]
    exact ⟨Nat.zero_le _, le_rfl⟩
  | accepted =>
    obtain ⟨-, hanswer⟩ := h
    obtain ⟨haccepted, hrejected⟩ := hanswer.counts
    obtain ⟨accepted, trades, last, rfl, -, -⟩ := hanswer
    exact ⟨by omega, by simp⟩
  | replaced =>
    obtain ⟨-, event, rest, rfl, hkind, hanswer⟩ := h
    obtain ⟨haccepted, hrejected⟩ := hanswer.counts
    rw [eventCount_cons hkind, eventCount_cons hkind, haccepted, hrejected]
    exact ⟨le_rfl, by simp⟩

/-- Every command is answered in one of the forms. -/
theorem OrderBook.dispatch_describes {book : OrderBook} (hbook : book.moment.WellFormed)
    (command : OrderCommandRecordV1) :
    ∃ form : AnswerForm, form.Describes command (book.dispatch command).1
      (book.dispatch command).2 := by
  unfold dispatch
  cases hkind : decodeCommandType command.commandType with
  | none => exact ⟨.rejected, book.reject_describes command _⟩
  | some kind =>
    cases kind with
    | newOrder => exact applyNewOrder_describes hbook hkind
    | cancelOrder => exact book.applyCancelOrder_describes hkind
    | replaceOrder => exact applyReplaceOrder_describes hbook hkind

/-- Over a run there are at most as many acceptances and refusals as commands, and at least
as many events. -/
theorem InstrumentEngine.applyAll_counts (firstEventSequence : UInt64)
    (commands : List OrderCommandRecordV1) :
    let events := ((create firstEventSequence).applyAll commands).1
    eventCount .orderAccepted events + eventCount .orderRejected events ≤ commands.length ∧
      commands.length ≤ events.length := by
  induction commands using List.reverseRecOn with
  | nil => exact ⟨le_rfl, le_rfl⟩
  | append_singleton earlier command ih =>
    have hwf := (reachable_applyAll firstEventSequence earlier).wellFormed
    obtain ⟨form, hform⟩ := OrderBook.dispatch_describes hwf command
    obtain ⟨honce, hanswered⟩ := hform.counts
    intro events
    have hevents : events = ((create firstEventSequence).applyAll earlier).1 ++
        (((create firstEventSequence).applyAll earlier).2.orderBook.dispatch command).1 :=
      congrArg Prod.fst (applyAll_concat _ earlier command)
    rw [hevents, eventCount_append, eventCount_append, List.length_append, List.length_append,
      List.length_singleton]
    omega

/-- Every trade closes one or two of the accepted orders, so over any run the orders that
were accepted are as many as the active ones, the cancelled ones and between one and two for
each trade. The events that announce an order as rested, as partly or as completely filled are
as many as the accepted orders, and the events and the active orders together are at most three
for each command. -/
theorem orders_accounted (firstEventSequence : UInt64) (commands : List OrderCommandRecordV1) :
    let run := (InstrumentEngine.create firstEventSequence).applyAll commands
    let trades := eventCount .tradeExecuted run.1
    let left := run.2.orderBook.activeOrderCount + eventCount .orderCancelled run.1
    trades + left ≤ eventCount .orderAccepted run.1 ∧
      eventCount .orderAccepted run.1 ≤ 2 * trades + left ∧
      eventCount .orderAccepted run.1 = eventCount .orderRested run.1 +
        eventCount .orderPartiallyFilled run.1 + eventCount .orderFullyFilled run.1 ∧
      commands.length ≤ run.1.length ∧
      run.1.length + run.2.orderBook.activeOrderCount ≤ 3 * commands.length := by
  intro run trades left
  have haccounted : OrdersAccounted run.1 run.2.orderBook.moment :=
    InstrumentEngine.applyAll_ordersAccounted firstEventSequence commands
  have hcounts : eventCount .orderAccepted run.1 + eventCount .orderRejected run.1 ≤
      commands.length ∧ commands.length ≤ run.1.length :=
    InstrumentEngine.applyAll_counts firstEventSequence commands
  obtain ⟨hlength, hsettled, hatLeast, hatMost⟩ := haccounted
  have hactive : run.2.orderBook.moment.activeOrders.keys.card =
      run.2.orderBook.activeOrderCount := rfl
  have hentering : run.2.orderBook.moment.entering = 0 := rfl
  have hwaiting : run.2.orderBook.moment.waiting = 0 := rfl
  refine ⟨?_, ?_, hsettled, hcounts.2, ?_⟩ <;> omega

/-! ## Quantities -/

/-- What an order adds to the quantity of a side. -/
def RestingOrder.offerOn (s : Side) (o : RestingOrder) : ℤ := if o.side = s.code then o.offer else 0

/-- The quantity of the active orders of a side. -/
def restingVolume (s : Side) (orders : ActiveOrders) : ℤ := orders.total (RestingOrder.offerOn s)

/-- What an event says has come in on a side. -/
def acceptedOn (s : Side) (event : ExecutionEventRecordV1) : ℤ :=
  if event.eventType = ExecutionEventType.orderAccepted.code ∧ event.side = s.code then
    event.quantityLots.toInt
  else 0

/-- What an event says was taken back on a side. -/
def cancelledOn (s : Side) (event : ExecutionEventRecordV1) : ℤ :=
  if event.eventType = ExecutionEventType.orderCancelled.code ∧ event.side = s.code then
    event.remainingQuantityLots.toInt
  else 0

/-- What an event says was traded. -/
def tradedIn (event : ExecutionEventRecordV1) : ℤ :=
  if event.eventType = ExecutionEventType.tradeExecuted.code then event.quantityLots.toInt else 0

/-- What some events say altogether. -/
def volume (f : ExecutionEventRecordV1 → ℤ) (events : List ExecutionEventRecordV1) : ℤ :=
  (events.map f).sum

theorem volume_concat (f : ExecutionEventRecordV1 → ℤ) (events : List ExecutionEventRecordV1)
    (event : ExecutionEventRecordV1) :
    volume f (events ++ [event]) = volume f events + f event := by
  simp [volume]

/-- What the incoming order still wants on a side. -/
def Moment.incomingVolume (s : Side) (m : Moment) : ℤ :=
  match m.incoming with
  | none => 0
  | some incoming => if incoming.command.side = s.code then incoming.remaining.toInt else 0

/-- What came in on a side was traded, was taken back, or is still there. -/
def VolumeAccounted (s : Side) (events : List ExecutionEventRecordV1) (m : Moment) : Prop :=
  volume (acceptedOn s) events = volume tradedIn events + volume (cancelledOn s) events +
    restingVolume s m.activeOrders + m.incomingVolume s

/-- One more event keeps the account of a side if the quantities at the moment change by what
it says. -/
theorem VolumeAccounted.concat {s : Side} {events : List ExecutionEventRecordV1} {m m' : Moment}
    (h : VolumeAccounted s events m) {event : ExecutionEventRecordV1}
    (hevent : acceptedOn s event + restingVolume s m.activeOrders + m.incomingVolume s =
      tradedIn event + cancelledOn s event + restingVolume s m'.activeOrders +
        m'.incomingVolume s) : VolumeAccounted s (events ++ [event]) m' := by
  unfold VolumeAccounted at h ⊢
  rw [volume_concat, volume_concat, volume_concat]
  omega

/-- What an event of a known kind says. -/
theorem volumes_of_kind (s : Side) {event : ExecutionEventRecordV1} (kind : ExecutionEventType)
    (hkind : event.eventType = kind.code) :
    acceptedOn s event =
        (if kind = .orderAccepted ∧ event.side = s.code then event.quantityLots.toInt else 0) ∧
      cancelledOn s event = (if kind = .orderCancelled ∧ event.side = s.code then
        event.remainingQuantityLots.toInt else 0) ∧
      tradedIn event = if kind = .tradeExecuted then event.quantityLots.toInt else 0 := by
  unfold acceptedOn cancelledOn tradedIn
  rw [hkind]
  simp only [ExecutionEventType.code_inj]
  exact ⟨trivial, trivial, trivial⟩

/-- A trade takes its quantity from the contra order. -/
theorem restingVolume_varsAfterFill (command : OrderCommandRecordV1) (priceTicks : Int64)
    {o : RestingOrder} {vars : MatchVars} (hlookup : vars.activeOrders.lookup o.orderId = some o)
    (hincoming : 0 < vars.incomingRemaining) (hresting : 0 < o.remainingQuantityLots) (s : Side) :
    restingVolume s (varsAfterFill (fillFront command priceTicks o vars)).activeOrders =
      restingVolume s vars.activeOrders - if o.side = s.code then
        (min vars.incomingRemaining o.remainingQuantityLots).toInt else 0 := by
  have htotal := total_varsAfterFill (RestingOrder.offerOn s) command priceTicks hlookup
  have hexact := fillFront_exact command priceTicks vars hincoming hresting
  have hleft : (if (fillFront command priceTicks o vars).restingOrder.remainingQuantityLots = 0
      then 0 else (fillFront command priceTicks o vars).restingOrder.offerOn s) =
        if o.side = s.code then o.offer -
          (min vars.incomingRemaining o.remainingQuantityLots).toInt else 0 := by
    have hoffer : (fillFront command priceTicks o vars).restingOrder.offerOn s =
        if o.side = s.code then o.offer -
          (min vars.incomingRemaining o.remainingQuantityLots).toInt else 0 := by
      rw [RestingOrder.offer, ← hexact.resting]
      rfl
    rw [hoffer]
    split
    · have hresting := hexact.resting
      rename_i hzero
      rw [hzero, Int64.toInt_zero] at hresting
      rw [RestingOrder.offer, ← hresting]
      exact (ite_self _).symm
    · rfl
  unfold restingVolume
  dsimp only at htotal
  rw [hleft, RestingOrder.offerOn] at htotal
  split_ifs at htotal ⊢ <;> omega

/-- A side is accounted for after every kind of emission. -/
theorem EmissionStep.volumeAccounted {s : Side} {events : List ExecutionEventRecordV1}
    {m m' : Moment} {e : Emission} (hstep : EmissionStep m e m') (hwf : m.WellFormed)
    (h : VolumeAccounted s events m) : VolumeAccounted s (events ++ [e.event]) m' := by
  refine h.concat ?_
  cases hstep with
  | reject command reason hidle =>
    obtain ⟨haccepted, hcancelled, htraded⟩ := volumes_of_kind s .orderRejected
      (show (emitRejectionEvent m.counters command reason).1.eventType = _ from rfl)
    simp only [Moment.emission, haccepted, hcancelled, htraded]
    simp [Moment.incomingVolume]
  | @cancel command o t hidle hactive hside =>
    obtain ⟨haccepted, hcancelled, htraded⟩ := volumes_of_kind s .orderCancelled
      (show (emitCancelEvent m.counters command o).1.eventType = _ from rfl)
    have hkey := (hwf.indexed t).key_of_lookup hactive
    have htotal : restingVolume s m.activeOrders =
        o.offerOn s + restingVolume s (m.activeOrders.erase o.orderId) := by
      rw [hkey]
      exact Finmap.total_of_lookup hactive
    simp only [Moment.emission, haccepted, hcancelled, htraded, reduceCtorEq, false_and, true_and,
      if_false]
    have hevent : (emitCancelEvent m.counters command o).1.side = o.side := rfl
    have hremaining : (emitCancelEvent m.counters command o).1.remainingQuantityLots =
        o.remainingQuantityLots := rfl
    rw [hevent, hremaining, htotal]
    simp only [Moment.afterCancel, Moment.incomingVolume, RestingOrder.offerOn, RestingOrder.offer]
    omega
  | @accept command t hidle hside hprice hquantity hnew hinstrument =>
    obtain ⟨haccepted, hcancelled, htraded⟩ := volumes_of_kind s .orderAccepted
      (show (emitOrderEvent m.counters command .orderAccepted command.quantityLots
        command.quantityLots).1.eventType = _ from rfl)
    simp only [Moment.emission, haccepted, hcancelled, htraded, reduceCtorEq, false_and, true_and,
      if_false]
    simp only [Moment.incomingVolume, hidle]
    change (if command.side = s.code then command.quantityLots.toInt else 0) + _ + 0 = 0 + 0 + _ +
      if command.side = s.code then command.quantityLots.toInt else 0
    omega
  | @trade command remaining t priceTicks o rest worse hincoming hside hremaining hlevels hcross =>
    have hfront := hwf.front hlevels
    have hlookup : (m.vars remaining).activeOrders.lookup o.orderId = some o :=
      hwf.lookup_front hlevels
    have hexact := fillFront_exact command priceTicks (m.vars remaining) hremaining
      hfront.remaining
    have hresting := restingVolume_varsAfterFill command priceTicks hlookup hremaining
      hfront.remaining s
    obtain ⟨haccepted, hcancelled, htraded⟩ := volumes_of_kind s .tradeExecuted
      (show (fillFront command priceTicks o (m.vars remaining)).event.eventType = _ from rfl)
    have hquantity : (fillFront command priceTicks o (m.vars remaining)).event.quantityLots =
        min remaining o.remainingQuantityLots := rfl
    have hincoming' := hexact.incoming
    have hcommand : command.side = t.code := decodeSide_eq_some_iff.mp hside
    simp only [fillEmission, haccepted, hcancelled, htraded, reduceCtorEq, false_and, if_false,
      if_true, hquantity]
    simp only [Moment.withMatch, Moment.incomingVolume, hincoming, hresting,
      varsAfterFill_incomingRemaining]
    change (fillFront command priceTicks o (m.vars remaining)).vars.incomingRemaining.toInt =
      remaining.toInt - (min remaining o.remainingQuantityLots).toInt at hincoming'
    rw [hincoming', hcommand, hfront.side]
    change _ = (min remaining o.remainingQuantityLots).toInt + 0 +
      (restingVolume s m.activeOrders - if t.opposite.code = s.code then
        (min remaining o.remainingQuantityLots).toInt else 0) + _
    -- the two orders of the trade are on opposite sides, and `s` is one of them
    rcases t.eq_or_eq_opposite s with rfl | rfl
    · have hne : s.opposite.code ≠ s.code := fun h => s.opposite_ne (Side.code_injective h)
      simp only [hne, if_true, if_false]
      omega
    · have hne : t.code ≠ t.opposite.code := fun h => t.opposite_ne (Side.code_injective h).symm
      simp only [hne, if_true, if_false]
      omega
  | @fill command hincoming =>
    obtain ⟨haccepted, hcancelled, htraded⟩ := volumes_of_kind s .orderFullyFilled
      (show (emitOrderEvent m.counters command .orderFullyFilled command.quantityLots
        0).1.eventType = _ from rfl)
    simp only [Moment.emission, haccepted, hcancelled, htraded, reduceCtorEq, false_and, if_false]
    simp [Moment.incomingVolume, hincoming]
  | @rest command remaining t hincoming hside hremaining hcross =>
    have hnew : command.orderId ∉ m.activeOrders := (hwf.incoming _ hincoming).new
    have hkind : ∃ kind : ExecutionEventType, kind ≠ .orderAccepted ∧ kind ≠ .orderCancelled ∧
        kind ≠ .tradeExecuted ∧
        (emitRestEvent m.counters command remaining).1.eventType = kind.code := by
      refine ⟨_, ?_, ?_, ?_, rfl⟩ <;> split <;> decide
    obtain ⟨kind, hne, hne', hne'', hkind⟩ := hkind
    obtain ⟨haccepted, hcancelled, htraded⟩ := volumes_of_kind s kind hkind
    have htotal : restingVolume s (m.activeOrders.insert command.orderId
        (restingOrderOf command remaining)) =
          (restingOrderOf command remaining).offerOn s + restingVolume s m.activeOrders :=
      Finmap.total_insert_of_notMem hnew
    simp only [Moment.emission, haccepted, hcancelled, htraded, hne, hne', hne'', false_and,
      if_false]
    simp only [Moment.afterRest, htotal, Moment.incomingVolume, hincoming]
    change 0 + _ + (if command.side = s.code then remaining.toInt else 0) =
      0 + 0 + ((if command.side = s.code then remaining.toInt else 0) + _) + 0
    omega

/-- A total over the active orders is that over the queues of the two sides. -/
theorem Moment.WellFormed.total_eq {m : Moment} (hwf : m.WellFormed) (s : Side)
    (f : RestingOrder → ℤ) :
    m.activeOrders.total f = ((queued (m.levels s)).map f).sum +
      ((queued (m.levels s.opposite)).map f).sum := by
  have hindexed := hwf.indexed s
  have hnodup : (((queued (m.levels s) ++ queued (m.levels s.opposite)).map
      fun o => (o.orderId, o)).map Prod.fst).Nodup := by
    rw [List.map_map]
    exact hindexed.nodup
  have hmem : ∀ k o, (k, o) ∈ (queued (m.levels s) ++ queued (m.levels s.opposite)).map
      (fun o => (o.orderId, o)) ↔ m.activeOrders.lookup k = some o := by
    intro k o
    rw [hindexed.lookup_iff, List.mem_map]
    constructor
    · rintro ⟨o', ho', heq⟩
      cases heq
      exact ⟨ho', rfl⟩
    · rintro ⟨ho, rfl⟩
      exact ⟨o, ho, rfl⟩
  have hsum := Finmap.total_eq_sum (f := f) hnodup hmem
  rwa [List.map_map, List.map_append, List.sum_append] at hsum

/-- The quantity of the active orders of a side is what its queues hold. -/
theorem Moment.WellFormed.restingVolume_eq {m : Moment} (hwf : m.WellFormed) (s : Side) :
    restingVolume s m.activeOrders = ((queued (m.levels s)).map RestingOrder.offer).sum := by
  have hown : (queued (m.levels s)).map (RestingOrder.offerOn s) =
      (queued (m.levels s)).map RestingOrder.offer :=
    List.map_congr_left fun o ho => if_pos (hwf.side_of_queued ho)
  have hother : (queued (m.levels s.opposite)).map (RestingOrder.offerOn s) =
      (queued (m.levels s.opposite)).map fun _ => (0 : ℤ) := by
    refine List.map_congr_left fun o ho => if_neg fun h => ?_
    rw [hwf.side_of_queued ho] at h
    exact s.opposite_ne (Side.code_injective h)
  unfold restingVolume
  rw [hwf.total_eq s, hown, hother]
  simp

/-- Over any run and on each side, what was accepted is what was traded, what cancellations
took back and what the queues of the side still hold; and what was traded is the same for
both sides, so their balances differ by nothing else. -/
theorem volume_accounted (firstEventSequence : UInt64) (commands : List OrderCommandRecordV1) :
    let run := (InstrumentEngine.create firstEventSequence).applyAll commands
    ∀ s, volume (acceptedOn s) run.1 = volume tradedIn run.1 + volume (cancelledOn s) run.1 +
      ((queued (run.2.orderBook.levels s)).map RestingOrder.offer).sum := by
  intro run s
  have haccounted : VolumeAccounted s run.1 run.2.orderBook.moment := by
    have hevents : run.1 =
        ((InstrumentEngine.create firstEventSequence).emissionsAll commands).map Emission.event :=
      (InstrumentEngine.emissionsAll_events _ commands).symm
    rw [hevents]
    refine InstrumentEngine.applyAll_preserves
      (P := fun es m => VolumeAccounted s (es.map Emission.event) m)
      (fun hstep hwf h => ?_) firstEventSequence rfl commands
    rw [List.map_append, List.map_singleton]
    exact hstep.volumeAccounted hwf h
  have hwf := (InstrumentEngine.reachable_applyAll firstEventSequence commands).wellFormed
  have hqueues := hwf.restingVolume_eq s
  have hincoming : run.2.orderBook.moment.incomingVolume s = 0 := rfl
  have hlevels : run.2.orderBook.moment.levels = run.2.orderBook.levels := rfl
  unfold VolumeAccounted at haccounted
  rw [haccounted, hqueues, hincoming, add_zero]
  rfl

end MatchingEngine
