import MatchingEngine.Core.CommandSteps

/-!
# The numbers of the events

The book has a counter for its events and a counter for its trades. Every emission takes
the next event number, a trade takes the next trade number as well, and nothing else
touches the counters, so both sequences are without gaps over any run of commands.
-/

namespace MatchingEngine

open FixedWidth

/-- The trades among the events. -/
def tradesOf (events : List ExecutionEventRecordV1) : List ExecutionEventRecordV1 :=
  events.filter fun event => event.IsTrade

/-- The event carries the numbers by which its command is known outside. -/
structure ExecutionEventRecordV1.AnswersTo (event : ExecutionEventRecordV1)
    (command : OrderCommandRecordV1) : Prop where
  commandSequence : event.commandSequence = command.commandSequence
  sourceIngressEpoch : event.sourceIngressEpoch = command.sourceIngressEpoch
  sourceIngressSequence : event.sourceIngressSequence = command.sourceIngressSequence

/-- The events so far are numbered without gaps, and the counters are behind them. -/
structure Numbered (firstEventSequence : UInt64) (events : List ExecutionEventRecordV1)
    (counters : EmissionCounters) : Prop where
  /-- The event numbers are consecutive. -/
  eventNumbers : events.map ExecutionEventRecordV1.eventSequence =
    numbersFrom firstEventSequence events.length
  /-- The next event number is the one behind them. -/
  nextEvent : counters.nextEventSequence = firstEventSequence + .ofNat events.length
  /-- The trade numbers are consecutive. -/
  tradeNumbers : (tradesOf events).map ExecutionEventRecordV1.tradeId =
    numbersFrom 1 (tradesOf events).length
  /-- The next trade number is the one behind them. -/
  nextTrade : counters.nextTradeId = 1 + .ofNat (tradesOf events).length
  /-- Only trades name a trade and a contra order. -/
  others : ∀ event ∈ events, ¬ event.IsTrade → event.tradeId = 0 ∧ event.contraOrderId = 0

theorem tradesOf_concat_of_trade {event : ExecutionEventRecordV1} (h : event.IsTrade)
    (events : List ExecutionEventRecordV1) :
    tradesOf (events ++ [event]) = tradesOf events ++ [event] := by
  simp [tradesOf, h]

theorem tradesOf_concat_of_not_trade {event : ExecutionEventRecordV1} (h : ¬ event.IsTrade)
    (events : List ExecutionEventRecordV1) : tradesOf (events ++ [event]) = tradesOf events := by
  simp [tradesOf, h]

/-! ## One emission -/

/-- A trade takes the next trade number; every other event leaves the counter alone and
names neither a trade nor a contra order. -/
theorem EmissionStep.tradeId {m m' : Moment} {e : Emission} (hstep : EmissionStep m e m') :
    (e.event.IsTrade ∧ e.event.tradeId = m.counters.nextTradeId ∧
        m'.counters.nextTradeId = m.counters.nextTradeId + 1) ∨
      (¬ e.event.IsTrade ∧ e.event.tradeId = 0 ∧ e.event.contraOrderId = 0 ∧
        m'.counters.nextTradeId = m.counters.nextTradeId) := by
  cases hstep with
  | reject =>
    exact Or.inr ⟨not_isTrade_of_eventType .orderRejected rfl (by decide), rfl, rfl, rfl⟩
  | cancel =>
    exact Or.inr ⟨not_isTrade_of_eventType .orderCancelled rfl (by decide), rfl, rfl, rfl⟩
  | accept =>
    exact Or.inr ⟨not_isTrade_of_eventType .orderAccepted rfl (by decide), rfl, rfl, rfl⟩
  | fill =>
    exact Or.inr ⟨not_isTrade_of_eventType .orderFullyFilled rfl (by decide), rfl, rfl, rfl⟩
  | rest =>
    refine Or.inr ⟨not_isTrade_of_eventType _ rfl ?_, rfl, rfl, rfl⟩
    split <;> decide
  | trade =>
    refine Or.inl ⟨rfl, rfl, ?_⟩
    unfold Moment.withMatch varsAfterFill
    split <;> rfl

/-- An event answers the command it is emitted for. -/
theorem EmissionStep.answersTo {m m' : Moment} {e : Emission} (hstep : EmissionStep m e m') :
    e.event.AnswersTo e.command := by
  cases hstep with
  | reject | cancel | accept | trade | fill | rest => exact ⟨rfl, rfl, rfl⟩

/-- Every emission goes on with the numbers. -/
theorem EmissionStep.numbered {firstEventSequence : UInt64} {es : List Emission} {m m' : Moment}
    {e : Emission} (hstep : EmissionStep m e m')
    (hm : Numbered firstEventSequence (es.map Emission.event) m.counters) :
    Numbered firstEventSequence ((es ++ [e]).map Emission.event) m'.counters := by
  obtain ⟨hsequence, hnext⟩ := hstep.eventSequence
  rw [List.map_append, List.map_singleton]
  have hevents : (es.map Emission.event ++ [e.event]).map ExecutionEventRecordV1.eventSequence =
      numbersFrom firstEventSequence (es.map Emission.event ++ [e.event]).length := by
    rw [List.map_append, hm.eventNumbers, List.map_singleton, hsequence, hm.nextEvent,
      List.length_append, List.length_singleton, numbersFrom_succ]
  have hnextEvent : m'.counters.nextEventSequence =
      firstEventSequence + .ofNat (es.map Emission.event ++ [e.event]).length := by
    rw [hnext, hm.nextEvent, List.length_append, List.length_singleton, add_ofNat_succ]
  rcases hstep.tradeId with ⟨htrade, hid, hcounter⟩ | ⟨hother, hid, hcontra, hcounter⟩
  · have htrades := tradesOf_concat_of_trade htrade (es.map Emission.event)
    refine ⟨hevents, hnextEvent, ?_, ?_, fun event hevent hnot => ?_⟩
    · rw [htrades, List.map_append, hm.tradeNumbers, List.map_singleton, hid, hm.nextTrade,
        List.length_append, List.length_singleton, numbersFrom_succ]
    · rw [htrades, hcounter, hm.nextTrade, List.length_append, List.length_singleton,
        add_ofNat_succ]
    · rcases List.mem_append.mp hevent with h | h
      · exact hm.others event h hnot
      · exact absurd (List.mem_singleton.mp h ▸ htrade) hnot
  · have htrades := tradesOf_concat_of_not_trade hother (es.map Emission.event)
    refine ⟨hevents, hnextEvent, ?_, ?_, fun event hevent hnot => ?_⟩
    · rw [htrades, hm.tradeNumbers]
    · rw [htrades, hcounter, hm.nextTrade]
    · rcases List.mem_append.mp hevent with h | h
      · exact hm.others event h hnot
      · rw [List.mem_singleton.mp h]
        exact ⟨hid, hcontra⟩

/-! ## Runs -/

/-- The events of every run are numbered without gaps. -/
theorem InstrumentEngine.applyAll_numbered (firstEventSequence : UInt64)
    (commands : List OrderCommandRecordV1) :
    Numbered firstEventSequence ((create firstEventSequence).applyAll commands).1
      ((create firstEventSequence).applyAll commands).2.orderBook.counters := by
  have hstart : Numbered firstEventSequence [] (OrderBook.create firstEventSequence).counters :=
    ⟨rfl, by simp [OrderBook.create], rfl, rfl, fun event h => absurd h List.not_mem_nil⟩
  rw [← emissionsAll_events]
  exact applyAll_preserves
    (P := fun es m => Numbered firstEventSequence (es.map Emission.event) m.counters)
    (fun hstep _ hm => hstep.numbered hm) firstEventSequence hstart commands

/-- The events of a command answer it. -/
theorem InstrumentEngine.Reachable.answersTo {engine : InstrumentEngine}
    (hreach : engine.Reachable) {command : OrderCommandRecordV1} {event : ExecutionEventRecordV1}
    (hevent : event ∈ (engine.apply command).1) : event.AnswersTo command := by
  change event ∈ (engine.orderBook.dispatch command).1 at hevent
  rw [← OrderBook.emissions_events] at hevent
  obtain ⟨e, he, rfl⟩ := List.mem_map.mp hevent
  obtain ⟨i, hi⟩ := List.mem_iff_getElem?.mp he
  obtain ⟨before, after, -, hstep⟩ := (OrderBook.dispatch_steps hreach.wellFormed command).step_at
    (P := fun _ _ => True) (fun _ _ => trivial) [] trivial hi
  have hanswers := hstep.answersTo
  rcases OrderBook.emissions_command he with hcommand | hcommand
  · rwa [hcommand] at hanswers
  · rw [hcommand] at hanswers
    exact ⟨hanswers.commandSequence, hanswers.sourceIngressEpoch, hanswers.sourceIngressSequence⟩

end MatchingEngine
