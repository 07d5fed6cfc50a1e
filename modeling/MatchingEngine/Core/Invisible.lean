import MatchingEngine.Core.Numbering
import MatchingEngine.Core.Symmetry

/-!
# Refused commands

A refused command is answered with one event and changes the event counter only, and no
later command looks at that counter. A run without its refused commands is therefore the
same run, up to the numbers of the events.
-/

namespace MatchingEngine

/-! ## Renumbering -/

/-- The event under another number. -/
def ExecutionEventRecordV1.withNumber (event : ExecutionEventRecordV1) (number : UInt64) :
    ExecutionEventRecordV1 := { event with eventSequence := number }

/-- The events under consecutive numbers. -/
def renumberedFrom (first : UInt64) : List ExecutionEventRecordV1 → List ExecutionEventRecordV1
  | [] => []
  | event :: events => event.withNumber first :: renumberedFrom (first + 1) events

/-- Consecutively numbered events that differ from others in their numbers only are the
others renumbered. -/
theorem eq_renumberedFrom {first : UInt64} {events events' : List ExecutionEventRecordV1}
    (hnumbers : events.map ExecutionEventRecordV1.eventSequence =
      FixedWidth.numbersFrom first events.length)
    (hsame : events.map (·.withNumber 0) = events'.map (·.withNumber 0)) :
    events = renumberedFrom first events' := by
  induction events generalizing first events' with
  | nil =>
    rw [List.map_nil, eq_comm, List.map_eq_nil_iff] at hsame
    rw [hsame, renumberedFrom]
  | cons event events ih =>
    obtain ⟨event', events', rfl, hevent, hevents⟩ := List.map_eq_cons_iff.mp hsame.symm
    rw [List.map_cons, List.length_cons, FixedWidth.numbersFrom_succ', List.cons.injEq] at hnumbers
    have hfirst : event = event'.withNumber first := by
      have hnumber := congrArg (·.withNumber event.eventSequence) hevent
      rw [← hnumbers.1]
      exact hnumber.symm
    rw [renumberedFrom, ← hfirst, ← ih hnumbers.2 hevents.symm]

/-- A renumbering of the events is not noticed. -/
def renumbering (shift : UInt64) : Symmetry :=
  { Symmetry.same with
    eventNumber := fun number => number + shift
    eventNumber_succ := fun number => by
      rw [UInt64.add_assoc, UInt64.add_comm 1, ← UInt64.add_assoc] }

/-- Levels know nothing of event numbers. -/
theorem renumbering_level (shift : UInt64) : (renumbering shift).level = id := by
  funext level
  exact Prod.ext rfl (List.map_id _)

/-- Every command is admitted. -/
theorem renumbering_admits (shift : UInt64) (command : OrderCommandRecordV1) :
    (renumbering shift).Admits command := fun _ => trivial

/-- When one of two books gives out one more number, the shift between them decreases. -/
theorem renumbering_reject {shift : UInt64} {book book' : OrderBook}
    (h : (renumbering shift).Relates book.moment book'.moment) (command : OrderCommandRecordV1)
    (reason : RejectionReason) :
    (renumbering (shift - 1)).Relates (book.reject command reason).2.moment book'.moment := by
  refine ⟨h.levels, h.index, h.instrumentId, ?_, h.range⟩
  have hnext : book.counters.nextEventSequence + shift =
      book.counters.nextEventSequence + 1 + (shift - 1) := by grind
  have hcounters : book'.counters = (renumbering shift).counters book.counters := h.counters
  change book'.counters = _
  rw [hcounters]
  exact congrArg (EmissionCounters.mk · book.counters.nextTradeId) hnext

/-! ## Refusals -/

/-- The event refuses its command. -/
def ExecutionEventRecordV1.IsRejection (event : ExecutionEventRecordV1) : Prop :=
  event.eventType = ExecutionEventType.orderRejected.code

instance decidableIsRejection (event : ExecutionEventRecordV1) : Decidable event.IsRejection :=
  inferInstanceAs (Decidable (_ = _))

/-- One of the answers to the command refuses it. -/
def InstrumentEngine.Rejects (engine : InstrumentEngine) (command : OrderCommandRecordV1) : Prop :=
  ∃ event ∈ (engine.apply command).1, event.IsRejection

instance InstrumentEngine.decidableRejects (engine : InstrumentEngine)
    (command : OrderCommandRecordV1) : Decidable (engine.Rejects command) :=
  inferInstanceAs (Decidable (∃ event ∈ (engine.apply command).1, event.IsRejection))

/-- The commands that are not refused when the engine gets all of them in turn. -/
def InstrumentEngine.acceptedCommands (engine : InstrumentEngine)
    (commands : List OrderCommandRecordV1) : List OrderCommandRecordV1 :=
  engineMachine.translateRun
    (fun engine command => if engine.Rejects command then none else some command) engine commands

/-- An event of another kind refuses nothing. -/
theorem not_isRejection_of_eventType {event : ExecutionEventRecordV1} (t : ExecutionEventType)
    (htype : event.eventType = t.code) (ht : t ≠ .orderRejected) : ¬ event.IsRejection :=
  fun h => ht (ExecutionEventType.code_injective (htype.symm.trans h))

/-- An accepted order is never refused later on. -/
theorem OrderBook.acceptNewOrder_not_isRejection {book : OrderBook}
    {command : OrderCommandRecordV1} {event : ExecutionEventRecordV1}
    (hevent : event ∈ (book.acceptNewOrder command).1) : ¬ event.IsRejection := by
  rw [← acceptEmissions_events] at hevent
  obtain ⟨e, he, rfl⟩ := List.mem_map.mp hevent
  simp only [acceptEmissions, List.cons_append, List.mem_cons, List.mem_append, List.not_mem_nil,
    or_false] at he
  rcases he with rfl | he | rfl
  · exact not_isRejection_of_eventType .orderAccepted rfl (by decide)
  · exact not_isRejection_of_eventType .tradeExecuted (levelEmissions_isTrade he) (by decide)
  · unfold settleEmission
    split
    · exact not_isRejection_of_eventType .orderFullyFilled rfl (by decide)
    · refine not_isRejection_of_eventType _ rfl ?_
      split <;> decide

/-- A cancellation is no refusal. -/
theorem emitCancelEvent_not_isRejection (counters : EmissionCounters)
    (command : OrderCommandRecordV1) (o : RestingOrder) :
    ¬ (emitCancelEvent counters command o).1.IsRejection :=
  not_isRejection_of_eventType .orderCancelled rfl (by decide)

/-- A new order is refused as a whole or not at all. -/
theorem OrderBook.applyNewOrder_refused_or_accepted (book : OrderBook)
    (command : OrderCommandRecordV1) :
    (∃ reason, book.applyNewOrder command = book.reject command reason) ∨
      ∀ event ∈ (book.applyNewOrder command).1, ¬ event.IsRejection := by
  unfold applyNewOrder
  split
  · exact Or.inl ⟨_, rfl⟩
  · exact Or.inr fun _ => acceptNewOrder_not_isRejection

/-- A cancellation is refused as a whole or not at all. -/
theorem OrderBook.applyCancelOrder_refused_or_accepted (book : OrderBook)
    (command : OrderCommandRecordV1) :
    (∃ reason, book.applyCancelOrder command = book.reject command reason) ∨
      ∀ event ∈ (book.applyCancelOrder command).1, ¬ event.IsRejection := by
  unfold applyCancelOrder
  split
  · exact Or.inl ⟨_, rfl⟩
  · split
    · exact Or.inl ⟨_, rfl⟩
    · split
      · exact Or.inl ⟨_, rfl⟩
      · refine Or.inr fun event hevent => ?_
        rw [List.mem_singleton.mp hevent]
        exact emitCancelEvent_not_isRejection _ _ _

/-- A replacement is refused before the old order is cancelled or not at all. -/
theorem OrderBook.applyReplaceOrder_refused_or_accepted {book : OrderBook}
    (hbook : book.moment.WellFormed) (command : OrderCommandRecordV1) :
    (∃ reason, book.applyReplaceOrder command = book.reject command reason) ∨
      ∀ event ∈ (book.applyReplaceOrder command).1, ¬ event.IsRejection := by
  unfold applyReplaceOrder
  by_cases hvalid : book.validateReplaceOrder command ≠ .none
  · rw [if_pos hvalid]
    exact Or.inl ⟨_, rfl⟩
  · rw [if_neg hvalid]
    obtain ⟨o, ho⟩ := replaceOrderValid_of_validate (not_not.mp hvalid)
    have hnew := ho.newOrderValid hbook
    have hfind : book.findOrder command.orderId = some o := ho.active
    have haccepted := ((book.cancelled command o).validateNewOrder_eq_none_iff
      (replacementNewOrderCommand command)).mpr hnew
    refine Or.inr fun event hevent => ?_
    simp only [hfind, List.mem_cons] at hevent
    rcases hevent with rfl | hevent
    · exact emitCancelEvent_not_isRejection _ _ _
    · change event ∈ ((book.cancelled command o).applyNewOrder
        (replacementNewOrderCommand command)).1 at hevent
      rw [applyNewOrder, if_neg (not_not.mpr haccepted)] at hevent
      exact acceptNewOrder_not_isRejection hevent

/-- A command is refused as a whole or not at all. -/
theorem OrderBook.dispatch_refused_or_accepted {book : OrderBook}
    (hbook : book.moment.WellFormed) (command : OrderCommandRecordV1) :
    (∃ reason, book.dispatch command = book.reject command reason) ∨
      ∀ event ∈ (book.dispatch command).1, ¬ event.IsRejection := by
  unfold dispatch
  cases decodeCommandType command.commandType with
  | none => exact Or.inl ⟨_, rfl⟩
  | some kind =>
    cases kind with
    | newOrder => exact book.applyNewOrder_refused_or_accepted command
    | cancelOrder => exact book.applyCancelOrder_refused_or_accepted command
    | replaceOrder => exact applyReplaceOrder_refused_or_accepted hbook command

/-- A refused command is answered with its refusal alone. -/
theorem InstrumentEngine.Reachable.rejects_iff {engine : InstrumentEngine}
    (hreach : engine.Reachable) (command : OrderCommandRecordV1) :
    engine.Rejects command ↔
      ∃ event, (engine.apply command).1 = [event] ∧ event.IsRejection := by
  refine ⟨fun ⟨event, hevent, hrejection⟩ => ?_, fun ⟨event, hevents, hrejection⟩ => ?_⟩
  · rcases OrderBook.dispatch_refused_or_accepted hreach.wellFormed command with
      ⟨reason, hrefused⟩ | haccepted
    · exact ⟨_, congrArg Prod.fst hrefused, rfl⟩
    · exact absurd hrejection (haccepted event hevent)
  · exact ⟨event, hevents ▸ List.mem_cons_self, hrejection⟩

/-! ## Runs without refused commands -/

/-- What is left of an event when refusals and numbers do not matter. -/
def acceptedView (event : ExecutionEventRecordV1) : Option ExecutionEventRecordV1 :=
  if event.IsRejection then none else some (event.withNumber 0)

/-- The view keeps the events that refuse nothing. -/
theorem filterMap_acceptedView (events : List ExecutionEventRecordV1) :
    events.filterMap acceptedView =
      (events.filter fun event => ¬ event.IsRejection).map (·.withNumber 0) := by
  rw [← List.filterMap_eq_map, List.filterMap_filter]
  refine List.filterMap_congr fun event _ => ?_
  unfold acceptedView
  by_cases h : event.IsRejection
  · simp [h]
  · simp [h]

/-- Two engines, the second of which has given out other event numbers. -/
def DifferInNumbers (engine engine' : InstrumentEngine) : Prop :=
  engine.Reachable ∧ ∃ shift, (renumbering shift).Relates engine.orderBook.moment
    engine'.orderBook.moment

/-- One command, which the second engine gets only if the first one does not refuse it. -/
theorem DifferInNumbers.step {engine engine' : InstrumentEngine}
    (h : DifferInNumbers engine engine') (command : OrderCommandRecordV1) :
    let accepted := if engine.Rejects command then none else some command
    (engine'.applyAll accepted.toList).1.filterMap (some ∘ (·.withNumber 0)) =
        (engine.apply command).1.filterMap acceptedView ∧
      DifferInNumbers (engine.apply command).2 (engine'.applyAll accepted.toList).2 := by
  obtain ⟨hreach, shift, hrelates⟩ := h
  intro accepted
  have hnext := hreach.apply command
  rcases OrderBook.dispatch_refused_or_accepted hreach.wellFormed command with
    ⟨reason, hrefused⟩ | haccepted
  · have happly : engine.apply command =
        ((engine.orderBook.reject command reason).1,
          ⟨(engine.orderBook.reject command reason).2⟩) := by
      rw [← hrefused]
      rfl
    have hrejects : engine.Rejects command := by
      rw [hreach.rejects_iff, happly]
      exact ⟨_, rfl, rfl⟩
    have hnone : accepted = none := if_pos hrejects
    rw [hnone, Option.toList_none, InstrumentEngine.applyAll_nil]
    refine ⟨?_, hnext, shift - 1, ?_⟩
    · rw [happly]
      rfl
    · rw [happly]
      exact renumbering_reject hrelates command reason
  · have hrejects : ¬ engine.Rejects command :=
      fun ⟨event, hevent, hrejection⟩ => haccepted event hevent hrejection
    have hsome : accepted = some command := if_neg hrejects
    have hanswers := hrelates.dispatch hreach.wellFormed (renumbering_admits shift command)
    rw [hsome, Option.toList_some, InstrumentEngine.applyAll_cons, InstrumentEngine.applyAll_nil,
      List.append_nil]
    refine ⟨?_, hnext, shift, hanswers.book⟩
    have hevents : (engine'.apply command).1 =
        (engine.apply command).1.map (renumbering shift).event := hanswers.events
    rw [hevents, List.filterMap_map]
    refine List.filterMap_congr fun event hevent => ?_
    exact (if_neg (haccepted event hevent)).symm

/-- A command is refused with exactly one event or not at all. Without the commands that
are refused, a run from a fresh engine ends with the same book and the same next trade
number, and its events are the other events of the run, renumbered from the same start. -/
theorem rejected_commands_invisible (firstEventSequence : UInt64)
    (commands : List OrderCommandRecordV1) :
    let fresh := InstrumentEngine.create firstEventSequence
    let run := fresh.applyAll commands
    let kept := fresh.applyAll (fresh.acceptedCommands commands)
    (∀ earlier command later, commands = earlier ++ command :: later →
        ((∃ event ∈ ((fresh.applyAll earlier).2.apply command).1, event.IsRejection) ↔
          ∃ event, ((fresh.applyAll earlier).2.apply command).1 = [event] ∧
            event.IsRejection)) ∧
      kept.2.orderBook.bids = run.2.orderBook.bids ∧
      kept.2.orderBook.asks = run.2.orderBook.asks ∧
      kept.2.orderBook.activeOrders = run.2.orderBook.activeOrders ∧
      kept.2.orderBook.instrumentId = run.2.orderBook.instrumentId ∧
      kept.2.orderBook.counters.nextTradeId = run.2.orderBook.counters.nextTradeId ∧
      kept.1 = renumberedFrom firstEventSequence
        (run.1.filter fun event => ¬ event.IsRejection) := by
  intro fresh run kept
  have hstart : DifferInNumbers fresh fresh := by
    have hfresh := (renumbering 0).relates_create firstEventSequence
    rw [show (renumbering 0).eventNumber firstEventSequence = firstEventSequence from
      UInt64.add_zero _] at hfresh
    exact ⟨InstrumentEngine.reachable_create firstEventSequence, 0, hfresh⟩
  have hrun := engineMachine.run_translateRun engineMachine
    (fun engine command => if engine.Rejects command then none else some command) acceptedView
    (some ∘ (·.withNumber 0)) (R := DifferInNumbers) (P := fun _ => True)
    (fun engine engine' command hengine _ => hengine.step command) hstart
    (show ∀ command ∈ commands, True from fun _ _ => trivial)
  obtain ⟨hevents, -, shift, hrelates⟩ := hrun
  have hlevels : ∀ s, kept.2.orderBook.levels s = run.2.orderBook.levels s := fun s => by
    have hmapped := hrelates.levels s
    rw [renumbering_level, List.map_id] at hmapped
    exact hmapped
  have hcounters : kept.2.orderBook.counters =
      (renumbering shift).counters run.2.orderBook.counters := hrelates.counters
  refine ⟨fun earlier command later _ => ?_, OrderedMap.ext (hlevels .buy),
    OrderedMap.ext (hlevels .sell), Finmap.ext_lookup fun orderId => ?_,
    hrelates.instrumentId.trans Option.map_id_apply, ?_, ?_⟩
  · exact (InstrumentEngine.reachable_applyAll firstEventSequence earlier).rejects_iff command
  · have hindex := hrelates.index orderId
    rw [show (renumbering shift).order = id from rfl, Option.map_id] at hindex
    exact hindex
  · rw [hcounters]
    rfl
  · refine eq_renumberedFrom (InstrumentEngine.applyAll_numbered firstEventSequence _).eventNumbers
      ?_
    rw [filterMap_acceptedView, List.filterMap_eq_map] at hevents
    exact hevents

end MatchingEngine
