import MatchingEngine.App.ExitCode
import MatchingEngine.Core.Diagnosis
import MatchingEngine.Projections.PublicBook

/-!
# What a successful replay says about the dumps

Two files that are replayed without a difference belong to a run of the engine. All dumps of the
event log then show this run: every event, every trade and the book that the engine is left
with, unless an order with id zero has come to rest.
-/

namespace App

open MatchingEngine Text Wal MarketDataProjection

/-! ## The loops -/

/-- What is returned and reported behind the last event of a log. -/
def dumpEnd : ReadOutcome ExecutionEventRecordV1 → ℕ × List UInt8
  | .endOfLog => (0, [])
  | .recordRead _
  | .failed => (1, unreadable)

/-- A log is dumped event by event, whatever is behind the last one. -/
theorem dumpEvents_eq (script : ReadScript ExecutionEventRecordV1) :
    let ending := script.outcome script.records.length
    dumpEvents script =
      ((dumpEnd ending).1, script.records.flatMap printEvent, (dumpEnd ending).2) := by
  induction script with
  | nil => rfl
  | cons outcome script ih =>
    cases outcome with
    | endOfLog => rfl
    | failed => rfl
    | recordRead event =>
      intro ending
      have hcons : ReadScript.records (.recordRead event :: script) =
          event :: ReadScript.records script := rfl
      rw [dumpEvents, hcons, List.flatMap_cons, ih]
      rfl

/-- The loop goes through all events that the projection accepts. -/
theorem applyProjection_of_accepted (orders : ℕ → IterationOrder)
    {script : ReadScript ExecutionEventRecordV1} {before : List ExecutionEventRecordV1}
    (h : before <+: script.records)
    (haccepted : ∀ result ∈ (feed orders before).1, result.status ≠ .rejected) :
    applyProjectionFromEventWal orders script {} =
      applyProjectionFromEventWal (fun i => orders (before.length + i)) (script.drop before.length)
        (feed orders before).2 := by
  induction before using List.reverseRecOn with
  | nil =>
    simp only [List.length_nil, Nat.zero_add]
    rfl
  | append_singleton before event ih =>
    rw [feed_concat] at haccepted ⊢
    have hnot := haccepted _ (List.mem_append_right _ List.mem_cons_self)
    have heq := ih ((List.prefix_append _ _).trans h) fun result hresult =>
      haccepted result (List.mem_append_left _ hresult)
    obtain ⟨later, hdrop⟩ := ReadScript.drop_of_prefix h
    have hnext := congrArg (List.drop 1) hdrop
    rw [List.drop_drop, List.drop_one, List.tail_cons] at hnext
    have hindex : (fun i => orders ((before ++ [event]).length + i)) =
        fun i => orders (before.length + (i + 1)) := by
      funext i
      rw [List.length_append, List.length_singleton, Nat.add_assoc, Nat.add_comm 1]
    rw [heq, hindex, List.length_append, List.length_singleton, hnext, hdrop,
      applyProjectionFromEventWal]
    exact if_neg hnot

/-- The loop ends at the first event that the projection refuses. -/
theorem applyProjection_of_refused (orders : ℕ → IterationOrder)
    {script : ReadScript ExecutionEventRecordV1} {before : List ExecutionEventRecordV1}
    {event : ExecutionEventRecordV1} (h : before ++ [event] <+: script.records)
    (haccepted : ∀ result ∈ (feed orders before).1, result.status ≠ .rejected)
    {error : String} {projection : MarketDataProjection}
    (hrefused : (feed orders before).2.apply (orders before.length) event =
      (rejected error, projection)) :
    applyProjectionFromEventWal orders script {} = (false, refusal event error, projection) := by
  obtain ⟨later, hdrop⟩ := ReadScript.drop_of_prefix h
  rw [applyProjection_of_accepted orders ((List.prefix_append _ _).trans h) haccepted, hdrop,
    applyProjectionFromEventWal, Nat.add_zero, hrefused]
  exact if_pos rfl

/-- The loop goes to the end of a log whose events are all accepted. -/
theorem applyProjection_to_end (orders : ℕ → IterationOrder)
    {script : ReadScript ExecutionEventRecordV1}
    (haccepted : ∀ result ∈ (feed orders script.records).1, result.status ≠ .rejected) :
    let ending := script.outcome script.records.length
    applyProjectionFromEventWal orders script {} =
      (decide ((dumpEnd ending).1 = 0), (dumpEnd ending).2, (feed orders script.records).2) := by
  intro ending
  have hrecords := ReadScript.records_drop (List.prefix_refl script.records)
  have hending : ReadScript.outcome (script.drop script.records.length) 0 = ending :=
    ReadScript.outcome_drop script _ 0
  rw [applyProjection_of_accepted orders (List.prefix_refl _) haccepted, ← hending]
  rw [List.self_eq_append_right] at hrecords
  generalize script.drop script.records.length = rest at hrecords ⊢
  rcases rest with _ | ⟨outcome, rest⟩
  · rfl
  cases outcome with
  | endOfLog => rfl
  | failed => rfl
  | recordRead event => cases hrecords

/-! ## The dumps of a run -/

section Runs

variable {Place : Type} (surroundings : Surroundings Place)
  (disk : Disk Place) {eventWal : List UInt8}

/-- What a dump of the projection shows of a run with these events: the text, or the refusal of
the first order with id zero. -/
def shown (disk : Disk Place) (events : List ExecutionEventRecordV1) (text : List UInt8) :
    CommandOutcome Place :=
  match events.find? fun event => event.Rests 0 with
  | none => { exitCode := 0, out := text, disk := disk }
  | some event => { exitCode := 1, err := refusal event invalidOrderState, disk := disk }

/-- What it shows if the log goes on like this behind these events. -/
def shownUpTo (disk : Disk Place) (events : List ExecutionEventRecordV1) :
    ReadOutcome ExecutionEventRecordV1 → List UInt8 → CommandOutcome Place
  | .endOfLog, text => shown disk events text
  | .recordRead _, _
  | .failed, _ =>
    match events.find? fun event => event.Rests 0 with
    | none => { exitCode := 1, err := unreadable, disk := disk }
    | some event => { exitCode := 1, err := refusal event invalidOrderState, disk := disk }

variable {surroundings disk} {commands : List OrderCommandRecordV1}

/-- A dump of the projection at a moment of a run. -/
theorem dumpProjection_eq {print : MarketDataProjection → List UInt8} {text : List UInt8}
    {es : List Emission} {m : Moment}
    (hsteps : EmissionSteps (OrderBook.create firstSequence).moment es m)
    (hrecords : (eventScript disk (surroundings.place eventWal)).records = es.map Emission.event)
    (hprint : ∀ p : MarketDataProjection, p.Current → Follows (es.map Emission.event) m p →
      print p = text) :
    dumpProjection surroundings disk print [eventWal] =
      shownUpTo disk (es.map Emission.event)
        ((eventScript disk (surroundings.place eventWal)).outcome es.length) text := by
  obtain ⟨-, hfed⟩ := hsteps.fed surroundings.orders
  have hrefuses := hsteps.refusesZero surroundings.orders
  have hdump : dumpProjection surroundings disk print [eventWal] =
      let fed := applyProjectionFromEventWal surroundings.orders
        (eventScript disk (surroundings.place eventWal)) {}
      if fed.1 = false then { exitCode := 1, err := fed.2.1, disk := disk }
      else { exitCode := 0, out := print fed.2.2, disk := disk } := rfl
  rw [hdump]
  generalize eventScript disk (surroundings.place eventWal) = script at hrecords ⊢
  cases hfind : (es.map Emission.event).find? fun event => event.Rests 0 with
  | none =>
    have hnone : ∀ e ∈ es, ¬ e.event.Rests 0 := by
      intro e he hzero
      exact List.find?_eq_none.mp hfind e.event (List.mem_map_of_mem he) (decide_eq_true hzero)
    have haccepted := hfed.accepted.mpr hnone
    have hfollows := hfed.follows haccepted
    have hcurrent := feed_current surroundings.orders (es.map Emission.event)
    rw [← hrecords] at haccepted
    have hend := applyProjection_to_end surroundings.orders haccepted
    rw [hrecords, List.length_map] at hend
    rw [hend]
    cases script.outcome es.length with
    | endOfLog =>
      rw [shownUpTo, shown, hfind, ← hprint _ hcurrent hfollows]
      rfl
    | failed =>
      rw [shownUpTo, hfind]
      rfl
    | recordRead event =>
      rw [shownUpTo, hfind]
      rfl
  | some event =>
    obtain ⟨hzero, before, after, heq, hbefore⟩ := List.find?_eq_some_iff_append.mp hfind
    rw [List.map_eq_append_iff] at heq
    obtain ⟨earlier, rest, rfl, rfl, hrest⟩ := heq
    obtain ⟨e, later, rfl, rfl, rfl⟩ := List.map_eq_cons_iff.mp hrest
    have hnone : ∀ other ∈ earlier, ¬ other.event.Rests 0 := by
      intro other hother hzero
      have hnot := hbefore other.event (List.mem_map_of_mem hother)
      rw [decide_eq_true hzero] at hnot
      cases hnot
    obtain ⟨haccepted, hrefused⟩ := hrefuses earlier e later rfl hnone (of_decide_eq_true hzero)
    rw [← List.length_map Emission.event] at hrefused
    have hfirst : earlier.map Emission.event ++ [e.event] <+: script.records := by
      rw [hrecords, List.map_append, List.map_cons]
      exact ⟨later.map Emission.event, by simp⟩
    rw [applyProjection_of_refused surroundings.orders hfirst haccepted hrefused]
    cases script.outcome _ with
    | endOfLog =>
      rw [shownUpTo, shown, hfind]
      rfl
    | failed =>
      rw [shownUpTo, hfind]
      rfl
    | recordRead event =>
      rw [shownUpTo, hfind]
      rfl

/-- The trades that a projection in step has on its tape are those so far. -/
theorem dumpTradesCommand_eq {es : List Emission} {m : Moment}
    (hsteps : EmissionSteps (OrderBook.create firstSequence).moment es m)
    (hrecords : (eventScript disk (surroundings.place eventWal)).records = es.map Emission.event) :
    dumpTradesCommand surroundings disk [eventWal] =
      shownUpTo disk (es.map Emission.event)
        ((eventScript disk (surroundings.place eventWal)).outcome es.length)
        ((tradeTape (es.map Emission.event)).flatMap printTrade) :=
  dumpProjection_eq hsteps hrecords fun _ _ hfollows =>
    congrArg (List.flatMap printTrade) hfollows.trades

/-- A projection in step shows what is made of the moment. -/
theorem dumpBookCommand_eq {es : List Emission} {m : Moment}
    (hsteps : EmissionSteps (OrderBook.create firstSequence).moment es m)
    (hrecords : (eventScript disk (surroundings.place eventWal)).records = es.map Emission.event) :
    dumpBookCommand surroundings disk [eventWal] =
      shownUpTo disk (es.map Emission.event)
        ((eventScript disk (surroundings.place eventWal)).outcome es.length)
        (printBook m.rebuiltBook (.ofNat es.length)) := by
  refine dumpProjection_eq hsteps hrecords fun p hcurrent hfollows => ?_
  have hwf := (hsteps.fed surroundings.orders).1
  have hlast : p.lastAppliedEventSequence = .ofNat es.length := by
    have hnext := hfollows.next.trans hsteps.nextEventSequence
    rw [UInt64.add_comm] at hnext
    exact UInt64.add_right_inj firstSequence |>.mp hnext
  rw [hfollows.book_eq hcurrent hwf, hlast]

/-- The events are printed in any case. -/
theorem dumpEventsCommand_eq {events : List ExecutionEventRecordV1}
    (hrecords : (eventScript disk (surroundings.place eventWal)).records = events) :
    let ending := (eventScript disk (surroundings.place eventWal)).outcome events.length
    dumpEventsCommand surroundings disk [eventWal] =
      { exitCode := (dumpEnd ending).1
        out := events.flatMap printEvent
        err := (dumpEnd ending).2
        disk := disk } := by
  subst hrecords
  unfold dumpEventsCommand
  dsimp only
  rw [dumpEvents_eq]

theorem replayCommand_exitCode {commandWal : List UInt8} :
    (replayCommand surroundings disk [commandWal, eventWal]).exitCode =
      replayWals (disk.entry (surroundings.place commandWal))
        (disk.entry (surroundings.place eventWal)) := rfl

/-- Two files that are replayed without a difference hold a run of the engine, and the dumps of
the event log show this run. The book that is dumped is what `rebuild_book` makes of the one of
the engine, and shows its quantities if none of them exceeds the largest `int64`. -/
theorem replay_certifies_dumps {commandWal : List UInt8}
    (hok : (replayCommand surroundings disk [commandWal, eventWal]).exitCode = 0) :
    ∃ commands,
      (logScript OrderCommand.storage orderCommandRecordType
        (disk.entry (surroundings.place commandWal))).Delivers commands ∧
      ConsecutiveCommands commands ∧
      let run := (InstrumentEngine.create firstSequence).applyAll commands
      (replayCommand surroundings disk [commandWal, eventWal]).out =
        okReport commands.length run.1.length ∧
      dumpEventsCommand surroundings disk [eventWal] =
        { exitCode := 0, out := run.1.flatMap printEvent, disk := disk } ∧
      dumpTradesCommand surroundings disk [eventWal] =
        shown disk run.1 ((tradeTape run.1).flatMap printTrade) ∧
      dumpBookCommand surroundings disk [eventWal] =
        shown disk run.1 (printBook run.2.orderBook.rebuiltBook (.ofNat run.1.length)) ∧
      (QuantitiesFit run.2.orderBook.activeOrders →
        run.2.orderBook.rebuiltBook.Shows run.2.orderBook.activeOrders) := by
  rw [replayCommand_exitCode] at hok
  have hreplay := replayWals_eq_zero_iff.mp hok
  obtain ⟨commands, hcommands, hconsecutive, hevents⟩ := replayResult_ok_iff.mp hreplay
  obtain ⟨hrecords, hending⟩ := ReadScript.Delivers.records_eq hevents
  have hemissions : ((InstrumentEngine.create firstSequence).emissionsAll commands).map
      Emission.event = runEngine commands := InstrumentEngine.emissionsAll_events _ commands
  have hcount : ((InstrumentEngine.create firstSequence).emissionsAll commands).length =
      (runEngine commands).length := by rw [← hemissions, List.length_map]
  have hsteps := InstrumentEngine.steps_applyAll firstSequence commands
  have hdumped : dumpEventsCommand surroundings disk [eventWal] = _ :=
    dumpEventsCommand_eq hrecords
  have htrades : dumpTradesCommand surroundings disk [eventWal] = _ :=
    dumpTradesCommand_eq hsteps (hrecords.trans hemissions.symm)
  have hbook : dumpBookCommand surroundings disk [eventWal] = _ :=
    dumpBookCommand_eq hsteps (hrecords.trans hemissions.symm)
  unfold eventScript at hdumped htrades hbook
  rw [hending] at hdumped
  rw [hcount, hending, hemissions] at htrades hbook
  rw [OrderBook.rebuiltBook_moment] at hbook
  have hwf := (InstrumentEngine.reachable_applyAll firstSequence commands).wellFormed
  exact ⟨commands, hcommands, hconsecutive, replayReport_of_ok hcommands hreplay, hdumped, htrades,
    hbook, hwf.rebuiltBook_shows⟩

/-- Two orders that trade, replayed and dumped. -/
theorem replay_certifies_dumps_trade :
    let commands : List OrderCommandRecordV1 :=
      [{ commandSequence := 1, orderId := 1, priceTicks := 100, quantityLots := 5
         instrumentId := 7, commandType := 1, side := 2, timeInForce := 1 },
        { commandSequence := 2, orderId := 2, priceTicks := 101, quantityLots := 2
          instrumentId := 7, commandType := 1, side := 1, timeInForce := 1 }]
    let disk : Disk Bool := fun isEvents =>
      some (if isEvents then eventBytes (runEngine commands) fun _ => {}
        else commandBytes commands fun _ => {})
    let surroundings : Surroundings Bool := { place := fun path => path = ascii "e" }
    (dumpBookCommand surroundings disk [ascii "e"]).out =
      ascii "Book instrument=7 last_event_sequence=5\nBids:\n  empty\nAsks:\n  100: 3\n" := by
  intro commands disk surroundings
  have hcommandLog : disk.entry (surroundings.place (ascii "c")) =
      .file (commandBytes commands fun _ => {}) := rfl
  have heventLog : disk.entry (surroundings.place (ascii "e")) =
      .file (eventBytes (runEngine commands) fun _ => {}) := rfl
  have hreplayable : Replayable commands := by decide
  have hok : (replayCommand surroundings disk [ascii "c", ascii "e"]).exitCode = 0 := by
    rw [replayCommand_exitCode, hcommandLog, heventLog, replayWals_eq_zero_iff]
    exact replay_complete_iff.mpr hreplayable
  obtain ⟨replayed, hdelivers, -, -, -, -, hbook, -⟩ := replay_certifies_dumps hok
  rw [hcommandLog] at hdelivers
  have hreplayed : replayed = commands := (commandBytes_delivers_iff.mp hdelivers).1
  rw [hbook, hreplayed]
  decide +kernel

end Runs

end App
