import Mathlib.Data.List.Chain
import MatchingEngine.Core.Replay
import MatchingEngine.Core.Validation

/-!
# What replay decides

Replay accepts two logs exactly when the event log is what the engine generates
for the command log. The invariant check of replay plays no part in this,
because the engine is reachable.
-/

namespace MatchingEngine

/-- A read script that delivers these records and then the end of the log. -/
def ReadScript.Delivers {α : Type} (script : ReadScript α) (records : List α) : Prop :=
  ∃ unread, script = records.map .recordRead ++ .endOfLog :: unread

/-- Every command sequence is the successor of the one before it. -/
def ConsecutiveCommands (commands : List OrderCommandRecordV1) : Prop :=
  (commands.map OrderCommandRecordV1.commandSequence).IsChain (fun a b => b = a + 1)

/-- Commands that may follow a command with the given sequence. -/
def ConsecutiveAfter (previous : Option UInt64) (commands : List OrderCommandRecordV1) : Prop :=
  (previous.toList ++ commands.map OrderCommandRecordV1.commandSequence).IsChain
    (fun a b => b = a + 1)

theorem consecutiveAfter_nil (previous : Option UInt64) : ConsecutiveAfter previous [] := by
  cases previous <;> simp [ConsecutiveAfter]

/-- The sequence test of replay takes one command off a consecutive list. -/
theorem consecutiveAfter_cons (previous : Option UInt64) (command : OrderCommandRecordV1)
    (commands : List OrderCommandRecordV1) :
    ConsecutiveAfter previous (command :: commands) ↔
      breaksSequence previous command = false ∧
        ConsecutiveAfter (some command.commandSequence) commands := by
  cases previous <;> simp [ConsecutiveAfter, breaksSequence]

/-- A script that starts with a record delivers it first. -/
theorem ReadScript.delivers_recordRead_cons {α : Type} {record : α} {script : ReadScript α}
    {records : List α} :
    ReadScript.Delivers (.recordRead record :: script) records ↔
      ∃ rest, records = record :: rest ∧ ReadScript.Delivers script rest := by
  constructor
  · rintro ⟨unread, h⟩
    cases records with
    | nil => cases h
    | cons first rest =>
      simp only [List.map_cons, List.cons_append, List.cons.injEq,
        ReadOutcome.recordRead.injEq] at h
      exact ⟨rest, by rw [h.1], unread, h.2⟩
  · rintro ⟨rest, rfl, unread, rfl⟩
    exact ⟨unread, rfl⟩

/-- A script that starts with the end of the log delivers nothing. -/
theorem ReadScript.delivers_endOfLog_cons {α : Type} {script : ReadScript α} {records : List α} :
    ReadScript.Delivers (.endOfLog :: script) records ↔ records = [] := by
  constructor
  · rintro ⟨unread, h⟩
    cases records with
    | nil => rfl
    | cons first rest => cases h
  · rintro rfl
    exact ⟨script, rfl⟩

/-- A script that starts with a failure does not come to an end. -/
theorem ReadScript.not_delivers_failed_cons {α : Type} {script : ReadScript α}
    {records : List α} : ¬ ReadScript.Delivers (.failed :: script) records := by
  rintro ⟨unread, h⟩
  cases records <;> cases h

/-- The events of a command match exactly when the event log continues with them. -/
theorem compareEvents_eq_matched_iff (command : OrderCommandRecordV1)
    (beforeSnapshot afterSnapshot : String) (generated : List ExecutionEventRecordV1) (index : ℕ)
    (events rest : ReadScript ExecutionEventRecordV1) (eventsCompared eventsCompared' : UInt64) :
    compareEvents command beforeSnapshot afterSnapshot generated index events eventsCompared =
        .matched rest eventsCompared' ↔
      events = generated.map .recordRead ++ rest ∧
        eventsCompared' = eventsCompared + UInt64.ofNat generated.length := by
  induction generated generalizing index events eventsCompared with
  | nil => simp [compareEvents, eq_comm]
  | cons event generated ih =>
    have hcount : eventsCompared + 1 + UInt64.ofNat generated.length =
        eventsCompared + UInt64.ofNat (event :: generated).length := by
      rw [List.length_cons, UInt64.ofNat_add, UInt64.add_assoc,
        UInt64.add_comm (UInt64.ofNat generated.length)]
      rfl
    unfold compareEvents
    cases events with
    | nil => simp [ReadScript.readNext]
    | cons outcome events =>
      cases outcome with
      | endOfLog => simp [ReadScript.readNext]
      | failed => simp [ReadScript.readNext]
      | recordRead stored =>
        simp only [ReadScript.readNext]
        by_cases hequal : event = stored
        · subst hequal
          rw [if_pos ((EventComparator.compare_equal_iff event event).mpr rfl), ih, hcount]
          simp
        · rw [if_neg (fun h => hequal ((EventComparator.compare_equal_iff event stored).mp h))]
          simp [Ne.symm hequal]

/-- A divergence within the events of a command is reported as one of the three
classes that concern stored events. -/
theorem compareEvents_diverged_class {command : OrderCommandRecordV1}
    {beforeSnapshot afterSnapshot : String} {generated : List ExecutionEventRecordV1} {index : ℕ}
    {events : ReadScript ExecutionEventRecordV1} {eventsCompared eventsCompared' : UInt64}
    {failure : ReplayFailure}
    (hdiverged : compareEvents command beforeSnapshot afterSnapshot generated index events
      eventsCompared = .diverged failure eventsCompared') :
    failure.failureClass = .storedEventMissing ∨ failure.failureClass = .storedEventReadFailed ∨
      failure.failureClass = .eventFieldMismatch := by
  induction generated generalizing index events eventsCompared with
  | nil => cases hdiverged
  | cons event generated ih =>
    unfold compareEvents at hdiverged
    cases events with
    | nil =>
      cases hdiverged
      exact Or.inr (Or.inl rfl)
    | cons outcome events =>
      cases outcome with
      | endOfLog =>
        cases hdiverged
        exact Or.inl rfl
      | failed =>
        cases hdiverged
        exact Or.inr (Or.inl rfl)
      | recordRead stored =>
        simp only [ReadScript.readNext] at hdiverged
        split at hdiverged
        · exact ih hdiverged
        · cases hdiverged
          exact Or.inr (Or.inr rfl)

/-- The validator accepts the book of every reachable engine. -/
theorem InstrumentEngine.Reachable.validateInvariants {engine : InstrumentEngine}
    (hreach : engine.Reachable) : engine.orderBook.validateInvariants = true :=
  engine.orderBook.validateInvariants_iff.mpr (OrderBook.consistent_of_wellFormed hreach.wellFormed)

/-! ## What one round of the main loop can do -/

/-- What the loop does with a command it has read. -/
inductive CommandRound (command : OrderCommandRecordV1)
    (commands : ReadScript OrderCommandRecordV1) (previous : Option UInt64)
    (events : ReadScript ExecutionEventRecordV1) (engine : InstrumentEngine)
    (result : ReplayResult) : ReplayResult × InstrumentEngine → Prop where
  /-- The command does not continue the sequence. -/
  | breaks (failure : ReplayFailure) (hbreak : breaksSequence previous command = true)
      (hclass : failure.failureClass = .commandSequenceBreak) :
      CommandRound command commands previous events engine result
        (failedResult failure result.commandsReplayed result.eventsCompared, engine)
  /-- The event log does not go on with the events of the command. -/
  | diverged (failure : ReplayFailure) (eventsCompared : UInt64)
      (hbreak : breaksSequence previous command = false)
      (hevents : ∀ rest, events ≠ (engine.apply command).1.map .recordRead ++ rest)
      (hclass : failure.failureClass = .storedEventMissing ∨
        failure.failureClass = .storedEventReadFailed ∨
        failure.failureClass = .eventFieldMismatch) :
      CommandRound command commands previous events engine result
        (failedResult failure result.commandsReplayed eventsCompared, (engine.apply command).2)
  /-- The book is refused by its validator. -/
  | violated (failure : ReplayFailure) (eventsCompared : UInt64)
      (hbreak : breaksSequence previous command = false)
      (hinvalid : (engine.apply command).2.orderBook.validateInvariants = false)
      (hclass : failure.failureClass = .invariantViolation) :
      CommandRound command commands previous events engine result
        (failedResult failure result.commandsReplayed eventsCompared, (engine.apply command).2)
  /-- The loop goes on with the next command. -/
  | continues (rest : ReadScript ExecutionEventRecordV1)
      (hbreak : breaksSequence previous command = false)
      (hevents : events = (engine.apply command).1.map .recordRead ++ rest) :
      CommandRound command commands previous events engine result
        (replayLoop commands (some command.commandSequence) rest (engine.apply command).2
          { result with
            commandsReplayed := result.commandsReplayed + 1
            eventsCompared :=
              result.eventsCompared + UInt64.ofNat (engine.apply command).1.length })

/-- A round ends in one of these ways. -/
theorem replayLoop_round (command : OrderCommandRecordV1)
    (commands : ReadScript OrderCommandRecordV1) (previous : Option UInt64)
    (events : ReadScript ExecutionEventRecordV1) (engine : InstrumentEngine)
    (result : ReplayResult) :
    CommandRound command commands previous events engine result
      (replayLoop (.recordRead command :: commands) previous events engine result) := by
  unfold replayLoop
  cases hbreak : breaksSequence previous command with
  | true => exact .breaks _ hbreak rfl
  | false =>
    simp only [Bool.false_eq_true, if_false]
    cases hcompare : compareEvents command engine.orderBook.snapshot
      (engine.apply command).2.orderBook.snapshot (engine.apply command).1 0 events
      result.eventsCompared with
    | diverged failure eventsCompared =>
      refine .diverged failure eventsCompared hbreak (fun rest hevents => ?_)
        (compareEvents_diverged_class hcompare)
      have hmatched := (compareEvents_eq_matched_iff command engine.orderBook.snapshot
        (engine.apply command).2.orderBook.snapshot (engine.apply command).1 0 events rest
        result.eventsCompared _).mpr ⟨hevents, rfl⟩
      rw [hcompare] at hmatched
      cases hmatched
    | matched rest eventsCompared =>
      obtain ⟨hevents, rfl⟩ := (compareEvents_eq_matched_iff ..).mp hcompare
      cases hvalid : (engine.apply command).2.orderBook.validateInvariants with
      | true =>
        simp only [if_true]
        exact .continues rest hbreak hevents
      | false =>
        simp only [Bool.false_eq_true, if_false]
        exact .violated _ _ hbreak hvalid rfl

/-- What the loop does at the end of the command log. -/
inductive FinishRound (events : ReadScript ExecutionEventRecordV1) (result : ReplayResult) :
    ReplayResult → Prop where
  /-- The event log has ended as well. -/
  | ended (hevents : events.Delivers []) : FinishRound events result result
  /-- The event log has not ended. -/
  | refused (failure : ReplayFailure) (hevents : ¬ events.Delivers [])
      (hclass : failure.failureClass = .extraStoredEvent ∨
        failure.failureClass = .storedEventReadFailed) :
      FinishRound events result
        (failedResult failure result.commandsReplayed result.eventsCompared)

/-- The end of the command log is met in one of these ways. -/
theorem finishReplay_round (events : ReadScript ExecutionEventRecordV1) (result : ReplayResult) :
    FinishRound events result (finishReplay events result) := by
  have hnot : ∀ outcome rest, outcome ≠ .endOfLog →
      ¬ ReadScript.Delivers (outcome :: rest : ReadScript ExecutionEventRecordV1) [] := by
    rintro outcome rest hne ⟨unread, hevents⟩
    exact hne (List.cons.inj hevents).1
  cases events with
  | nil => exact .refused _ (fun ⟨_, hevents⟩ => by cases hevents) (.inr rfl)
  | cons outcome events =>
    cases outcome with
    | recordRead event => exact .refused _ (hnot _ _ (by simp)) (.inl rfl)
    | endOfLog => exact .ended ⟨events, rfl⟩
    | failed => exact .refused _ (hnot _ _ (by simp)) (.inr rfl)

/-! ## The whole loop -/

/-- The main loop accepts exactly the logs that belong together. -/
theorem replayLoop_ok_iff {engine : InstrumentEngine} (hreach : engine.Reachable)
    (commands : ReadScript OrderCommandRecordV1) (previous : Option UInt64)
    (events : ReadScript ExecutionEventRecordV1) {result : ReplayResult} (hok : result.ok = true) :
    (replayLoop commands previous events engine result).1.ok = true ↔
      ∃ replayed, commands.Delivers replayed ∧ ConsecutiveAfter previous replayed ∧
        events.Delivers (engine.applyAll replayed).1 := by
  induction commands generalizing engine previous events result with
  | nil => simp [replayLoop, failedResult, ReadScript.Delivers]
  | cons outcome commands ih =>
    cases outcome with
    | failed =>
      simp only [replayLoop, failedResult, Bool.false_eq_true, false_iff, not_exists]
      rintro replayed ⟨⟨unread, hcommands⟩, -⟩
      cases replayed <;> cases hcommands
    | endOfLog =>
      have hnone : (∃ replayed, ReadScript.Delivers (.endOfLog :: commands) replayed ∧
          ConsecutiveAfter previous replayed ∧ events.Delivers (engine.applyAll replayed).1) ↔
          events.Delivers [] := by
        constructor
        · rintro ⟨replayed, ⟨unread, hcommands⟩, -, hevents⟩
          cases replayed with
          | nil => exact hevents
          | cons command replayed => cases hcommands
        · exact fun hevents => ⟨[], ⟨commands, rfl⟩, consecutiveAfter_nil previous, hevents⟩
      have hround := finishReplay_round events result
      rw [hnone, replayLoop]
      generalize finishReplay events result = finished at hround ⊢
      cases hround with
      | ended hevents => exact iff_of_true hok hevents
      | refused failure hevents => exact iff_of_false Bool.false_ne_true hevents
    | recordRead command =>
      have hround := replayLoop_round command commands previous events engine result
      have hnext := hreach.apply command
      simp only [ReadScript.delivers_recordRead_cons]
      generalize replayLoop (.recordRead command :: commands) previous events engine result =
        outcome at hround ⊢
      cases hround with
      | breaks failure hbreak =>
        refine iff_of_false Bool.false_ne_true ?_
        rintro ⟨_, ⟨replayed, rfl, -⟩, hconsecutive, -⟩
        rw [consecutiveAfter_cons, hbreak] at hconsecutive
        cases hconsecutive.1
      | diverged failure eventsCompared hbreak hevents =>
        refine iff_of_false Bool.false_ne_true ?_
        rintro ⟨_, ⟨replayed, rfl, -⟩, -, unread, hall⟩
        rw [InstrumentEngine.applyAll_cons, List.map_append, List.append_assoc] at hall
        exact hevents _ hall
      | violated failure eventsCompared hbreak hinvalid =>
        rw [hnext.validateInvariants] at hinvalid
        cases hinvalid
      | continues rest hbreak hevents =>
        refine (ih hnext (some command.commandSequence) rest ?_).trans ?_
        · exact hok
        constructor
        · rintro ⟨replayed, hcommands, hconsecutive, unread, hrest⟩
          refine ⟨command :: replayed, ⟨replayed, rfl, hcommands⟩,
            (consecutiveAfter_cons previous command replayed).mpr ⟨hbreak, hconsecutive⟩,
            unread, ?_⟩
          rw [InstrumentEngine.applyAll_cons, List.map_append, List.append_assoc, hevents, hrest]
        · rintro ⟨_, ⟨replayed, rfl, hcommands⟩, hconsecutive, unread, hall⟩
          rw [InstrumentEngine.applyAll_cons, List.map_append, List.append_assoc, hevents] at hall
          exact ⟨replayed, hcommands, ((consecutiveAfter_cons ..).mp hconsecutive).2, unread,
            List.append_cancel_left hall⟩

/-- A successful loop has counted the commands and the events it went through. -/
theorem replayLoop_counts {engine : InstrumentEngine} {commands : ReadScript OrderCommandRecordV1}
    {previous : Option UInt64} {events : ReadScript ExecutionEventRecordV1} {result : ReplayResult}
    {replayed : List OrderCommandRecordV1} (hdelivers : commands.Delivers replayed)
    (hok : (replayLoop commands previous events engine result).1.ok = true) :
    (replayLoop commands previous events engine result).1.commandsReplayed =
        result.commandsReplayed + UInt64.ofNat replayed.length ∧
      (replayLoop commands previous events engine result).1.eventsCompared =
        result.eventsCompared + UInt64.ofNat (engine.applyAll replayed).1.length := by
  induction commands generalizing engine previous events result replayed with
  | nil => cases hok
  | cons outcome commands ih =>
    cases outcome with
    | failed => cases hok
    | endOfLog =>
      obtain ⟨unread, hcommands⟩ := hdelivers
      cases replayed with
      | cons command replayed => cases hcommands
      | nil =>
        have hround := finishReplay_round events result
        rw [replayLoop] at hok ⊢
        generalize finishReplay events result = finished at hround hok ⊢
        cases hround with
        | ended => exact ⟨(UInt64.add_zero _).symm, (UInt64.add_zero _).symm⟩
        | refused => cases hok
    | recordRead command =>
      obtain ⟨rest, rfl, hrest⟩ := ReadScript.delivers_recordRead_cons.mp hdelivers
      have hround := replayLoop_round command commands previous events engine result
      generalize replayLoop (.recordRead command :: commands) previous events engine result =
        outcome at hround hok ⊢
      cases hround with
      | breaks | diverged | violated => cases hok
      | continues unread hbreak hevents =>
        obtain ⟨hcommands, hcompared⟩ := ih hrest hok
        refine ⟨?_, ?_⟩
        · rw [hcommands, List.length_cons, UInt64.ofNat_add, UInt64.add_assoc,
            UInt64.add_comm (UInt64.ofNat rest.length)]
          rfl
        · rw [hcompared, InstrumentEngine.applyAll_cons, List.length_append, UInt64.ofNat_add,
            UInt64.add_assoc]

/-- Where a replay stopped reading commands, and which commands it had applied. -/
inductive ReplayStopped (commands : ReadScript OrderCommandRecordV1)
    (previous : Option UInt64) (engine engine' : InstrumentEngine) : ReplayFailureClass → Prop
  /-- A command read failed after the applied commands. -/
  | readFailed (applied : List OrderCommandRecordV1) (unread : ReadScript OrderCommandRecordV1)
      (hcommands : commands = applied.map .recordRead ++ .failed :: unread)
      (hengine : engine' = (engine.applyAll applied).2) :
      ReplayStopped commands previous engine engine' .commandReadFailed
  /-- The command log ran out after the applied commands. -/
  | exhausted (applied : List OrderCommandRecordV1)
      (hcommands : commands = applied.map .recordRead)
      (hengine : engine' = (engine.applyAll applied).2) :
      ReplayStopped commands previous engine engine' .commandReadFailed
  /-- The command after the applied ones does not continue their sequence. -/
  | sequenceBreak (applied : List OrderCommandRecordV1) (command : OrderCommandRecordV1)
      (unread : ReadScript OrderCommandRecordV1)
      (hcommands : commands = applied.map .recordRead ++ .recordRead command :: unread)
      (happlied : ConsecutiveAfter previous applied)
      (hbreak : ¬ ConsecutiveAfter previous (applied ++ [command]))
      (hengine : engine' = (engine.applyAll applied).2) :
      ReplayStopped commands previous engine engine' .commandSequenceBreak

/-- One command that was read and applied precedes those of the rest of the run. -/
theorem ReplayStopped.cons {commands : ReadScript OrderCommandRecordV1} {previous : Option UInt64}
    {engine engine' : InstrumentEngine} {command : OrderCommandRecordV1}
    {failureClass : ReplayFailureClass} (hbreak : breaksSequence previous command = false)
    (hstopped : ReplayStopped commands (some command.commandSequence) (engine.apply command).2
      engine' failureClass) :
    ReplayStopped (.recordRead command :: commands) previous engine engine' failureClass := by
  cases hstopped with
  | readFailed applied unread hcommands hengine =>
    exact .readFailed (command :: applied) unread (by rw [hcommands]; rfl) hengine
  | exhausted applied hcommands hengine =>
    exact .exhausted (command :: applied) (by rw [hcommands]; rfl) hengine
  | sequenceBreak applied broken unread hcommands happlied hbroken hengine =>
    refine .sequenceBreak (command :: applied) broken unread (by rw [hcommands]; rfl) ?_ ?_ hengine
    · exact (consecutiveAfter_cons ..).mpr ⟨hbreak, happlied⟩
    · exact fun h => hbroken ((consecutiveAfter_cons ..).mp h).2

/-- A loop that stops at the command log has applied exactly the commands before
the place where it stopped. -/
theorem replayLoop_stopped {engine : InstrumentEngine} {commands : ReadScript OrderCommandRecordV1}
    {previous : Option UInt64} {events : ReadScript ExecutionEventRecordV1} {result : ReplayResult}
    (hresult : result.failure.failureClass = .none) {failureClass : ReplayFailureClass}
    (hclass : (replayLoop commands previous events engine result).1.failure.failureClass =
      failureClass)
    (hstop : failureClass = .commandReadFailed ∨ failureClass = .commandSequenceBreak) :
    ReplayStopped commands previous engine (replayLoop commands previous events engine result).2
      failureClass := by
  -- Every other class of failure is excluded.
  have hother : ∀ other : ReplayFailureClass, other = failureClass → other ≠ .commandReadFailed →
      other ≠ .commandSequenceBreak → False := by
    rintro other rfl hread hsequence
    exact hstop.elim hread hsequence
  induction commands generalizing engine previous events result with
  | nil =>
    cases hclass
    exact .exhausted [] rfl rfl
  | cons outcome commands ih =>
    cases outcome with
    | failed =>
      cases hclass
      exact .readFailed [] commands rfl rfl
    | endOfLog =>
      exfalso
      have hround := finishReplay_round events result
      rw [replayLoop] at hclass
      generalize finishReplay events result = finished at hround hclass
      cases hround with
      | ended => exact hother _ (hresult.symm.trans hclass) (by decide) (by decide)
      | refused failure hevents hfinish =>
        rcases hfinish with h | h
        all_goals exact hother _ (h.symm.trans hclass) (by decide) (by decide)
    | recordRead command =>
      have hround := replayLoop_round command commands previous events engine result
      generalize replayLoop (.recordRead command :: commands) previous events engine result =
        outcome at hround hclass ⊢
      cases hround with
      | breaks failure hbreak hfailure =>
        obtain rfl : ReplayFailureClass.commandSequenceBreak = failureClass :=
          hfailure.symm.trans hclass
        refine .sequenceBreak [] command commands rfl (consecutiveAfter_nil previous) ?_ rfl
        rw [List.nil_append, consecutiveAfter_cons, hbreak]
        exact fun h => by cases h.1
      | diverged failure eventsCompared hbreak hevents hfailure =>
        exfalso
        rcases hfailure with h | h | h
        all_goals exact hother _ (h.symm.trans hclass) (by decide) (by decide)
      | violated failure eventsCompared hbreak hinvalid hfailure =>
        exact (hother _ (hfailure.symm.trans hclass) (by decide) (by decide)).elim
      | continues rest hbreak hevents =>
        refine ReplayStopped.cons hbreak (ih ?_ hclass)
        exact hresult

/-- The loop never reports a violated invariant on a reachable engine. -/
theorem replayLoop_class_ne_invariantViolation {engine : InstrumentEngine}
    (hreach : engine.Reachable) (commands : ReadScript OrderCommandRecordV1)
    (previous : Option UInt64) (events : ReadScript ExecutionEventRecordV1) {result : ReplayResult}
    (hresult : result.failure.failureClass ≠ .invariantViolation) :
    (replayLoop commands previous events engine result).1.failure.failureClass ≠
      .invariantViolation := by
  induction commands generalizing engine previous events result with
  | nil => exact fun h => by cases h
  | cons outcome commands ih =>
    cases outcome with
    | failed => exact fun h => by cases h
    | endOfLog =>
      have hround := finishReplay_round events result
      rw [replayLoop]
      generalize finishReplay events result = finished at hround ⊢
      cases hround with
      | ended => exact hresult
      | refused failure hevents hclass =>
        change failure.failureClass ≠ _
        rcases hclass with h | h <;> rw [h] <;> decide
    | recordRead command =>
      have hround := replayLoop_round command commands previous events engine result
      have hnext := hreach.apply command
      generalize replayLoop (.recordRead command :: commands) previous events engine result =
        outcome at hround ⊢
      cases hround with
      | breaks failure hbreak hclass =>
        change failure.failureClass ≠ _
        rw [hclass]
        decide
      | diverged failure eventsCompared hbreak hevents hclass =>
        change failure.failureClass ≠ _
        rcases hclass with h | h | h <;> rw [h] <;> decide
      | violated failure eventsCompared hbreak hinvalid =>
        rw [hnext.validateInvariants] at hinvalid
        cases hinvalid
      | continues rest hbreak hevents =>
        exact ih hnext (some command.commandSequence) rest hresult

/-- After every run from a fresh engine the book passes its validator, its index
holds exactly the queued orders under their own ids, and every order carries the
instrument of the book; so no replay on such an engine reports a violation. -/
theorem applyAll_book_consistent (firstEventSequence : UInt64)
    (commands : List OrderCommandRecordV1) :
    let engine := ((InstrumentEngine.create firstEventSequence).applyAll commands).2
    engine.orderBook.validateInvariants = true ∧
      engine.orderBook.Consistent ∧
      (∀ orderId o, engine.orderBook.activeOrders.lookup orderId = some o ↔
        o ∈ queued (engine.orderBook.levels .buy) ++ queued (engine.orderBook.levels .sell) ∧
          o.orderId = orderId) ∧
      (∀ orderId o, engine.orderBook.activeOrders.lookup orderId = some o →
        engine.orderBook.instrumentId = some o.instrumentId) ∧
      ∀ commandLog eventLog, (ReplayRunner.replay commandLog eventLog engine).1.failure.failureClass
        ≠ .invariantViolation := by
  intro engine
  have hreach : engine.Reachable :=
    InstrumentEngine.reachable_applyAll firstEventSequence commands
  have hbook := hreach.wellFormed
  refine ⟨hreach.validateInvariants, OrderBook.consistent_of_wellFormed hbook,
    (hbook.indexed .buy).lookup_iff, fun orderId o hlookup => ?_, fun commandLog eventLog => ?_⟩
  · rcases List.mem_append.mp ((hbook.indexed .buy).mem_of_lookup hlookup) with ho | ho
    · exact hbook.bound .buy o ho
    · exact hbook.bound .sell o ho
  · exact replayLoop_class_ne_invariantViolation hreach commandLog none eventLog (by decide)

/-- Replay on a reachable engine succeeds exactly when the command log is a list
of consecutive commands and the event log is what the engine generates for it.
It then counts all of both, and a stop at the command log applies no later command. -/
theorem replay_decides (firstEventSequence : UInt64) (earlier : List OrderCommandRecordV1)
    (commandLog : ReadScript OrderCommandRecordV1) (eventLog : ReadScript ExecutionEventRecordV1) :
    let engine := ((InstrumentEngine.create firstEventSequence).applyAll earlier).2
    let replayed := ReplayRunner.replay commandLog eventLog engine
    (replayed.1.ok = true ↔
        ∃ commands, commandLog.Delivers commands ∧ ConsecutiveCommands commands ∧
          eventLog.Delivers (engine.applyAll commands).1) ∧
      (∀ commands, commandLog.Delivers commands → replayed.1.ok = true →
        replayed.1.commandsReplayed = UInt64.ofNat commands.length ∧
          replayed.1.eventsCompared = UInt64.ofNat (engine.applyAll commands).1.length) ∧
      ∀ failureClass, replayed.1.failure.failureClass = failureClass →
        failureClass = .commandReadFailed ∨ failureClass = .commandSequenceBreak →
          ReplayStopped commandLog none engine replayed.2 failureClass := by
  intro engine replayed
  have hreach : engine.Reachable := InstrumentEngine.reachable_applyAll firstEventSequence earlier
  refine ⟨replayLoop_ok_iff hreach commandLog none eventLog rfl, ?_, ?_⟩
  · intro commands hdelivers hok
    obtain ⟨hcommands, hevents⟩ := replayLoop_counts hdelivers hok
    exact ⟨hcommands.trans (UInt64.zero_add _), hevents.trans (UInt64.zero_add _)⟩
  · intro failureClass hclass hstop
    exact replayLoop_stopped rfl hclass hstop

end MatchingEngine
