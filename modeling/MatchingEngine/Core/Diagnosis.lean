import MatchingEngine.Core.Divergence

/-!
# The whole answer of a replay

Whatever the two readers return, the answer of a replay is determined by three things: the
commands up to the first one that is not read or has the wrong number, the events that the
engine generates for them, and the first place where the event reader does not return what
was generated.
-/

namespace MatchingEngine

/-! ## What a reader returns -/

/-- The records a reader returns before it returns something else. -/
def ReadScript.records {α : Type} : ReadScript α → List α
  | .recordRead record :: script => record :: records script
  | _ => []

/-- What a reader returns when it is called once more. -/
def ReadScript.outcome {α : Type} (script : ReadScript α) (calls : ℕ) : ReadOutcome α :=
  (ReadScript.readNext (script.drop calls)).1

/-- What a reader returns later. -/
theorem ReadScript.outcome_drop {α : Type} (script : ReadScript α) (calls later : ℕ) :
    ReadScript.outcome (script.drop calls) later = script.outcome (calls + later) := by
  unfold outcome
  rw [List.drop_drop]

/-- The records behind others. -/
theorem ReadScript.records_drop {α : Type} {script : ReadScript α} {records : List α}
    (h : records <+: script.records) :
    script.records = records ++ ReadScript.records (script.drop records.length) := by
  induction records generalizing script with
  | nil => rfl
  | cons record records ih =>
    rcases script with _ | ⟨outcome, script⟩
    · exact absurd (List.prefix_nil.mp h) (List.cons_ne_nil _ _)
    cases outcome with
    | endOfLog => exact absurd (List.prefix_nil.mp h) (List.cons_ne_nil _ _)
    | failed => exact absurd (List.prefix_nil.mp h) (List.cons_ne_nil _ _)
    | recordRead first =>
      obtain ⟨rfl, hrest⟩ := List.cons_prefix_cons.mp h
      exact congrArg (record :: ·) (ih hrest)

/-- What a reader goes on with behind some of its records. -/
theorem ReadScript.drop_of_prefix {α : Type} {script : ReadScript α} {records : List α}
    {record : α} (h : records ++ [record] <+: script.records) :
    ∃ later, script.drop records.length = .recordRead record :: later := by
  have hbehind := records_drop ((List.prefix_append _ _).trans h)
  rw [hbehind, List.prefix_append_right_inj] at h
  generalize script.drop records.length = rest at h ⊢
  rcases rest with _ | ⟨outcome, rest⟩
  · exact absurd (List.prefix_nil.mp h) (List.cons_ne_nil _ _)
  cases outcome with
  | endOfLog => exact absurd (List.prefix_nil.mp h) (List.cons_ne_nil _ _)
  | failed => exact absurd (List.prefix_nil.mp h) (List.cons_ne_nil _ _)
  | recordRead first =>
    obtain ⟨rfl, -⟩ := List.cons_prefix_cons.mp h
    exact ⟨rest, rfl⟩

/-- What a reader returns while it returns records, and when it stops. -/
theorem ReadScript.outcome_eq {α : Type} {script : ReadScript α} {calls : ℕ}
    (h : calls ≤ script.records.length) :
    script.outcome calls =
      script.records[calls]?.elim (script.outcome script.records.length) .recordRead := by
  induction script generalizing calls with
  | nil =>
    obtain rfl : calls = 0 := Nat.le_zero.mp h
    rfl
  | cons outcome script ih =>
    cases outcome with
    | endOfLog =>
      obtain rfl : calls = 0 := Nat.le_zero.mp h
      rfl
    | failed =>
      obtain rfl : calls = 0 := Nat.le_zero.mp h
      rfl
    | recordRead record =>
      cases calls with
      | zero => rfl
      | succ calls => exact ih (Nat.le_of_succ_le_succ h)

/-- What a reader returns that delivers these records. -/
theorem ReadScript.Delivers.records_eq {α : Type} {script : ReadScript α} {records : List α}
    (h : script.Delivers records) :
    script.records = records ∧ script.outcome records.length = .endOfLog := by
  obtain ⟨unread, rfl⟩ := h
  induction records with
  | nil => exact ⟨rfl, rfl⟩
  | cons record records ih => exact ⟨congrArg (record :: ·) ih.1, ih.2⟩

/-- The commands whose numbers count on, up to the first one whose number does not. -/
def countingOn : Option UInt64 → List OrderCommandRecordV1 → List OrderCommandRecordV1
  | _, [] => []
  | previous, command :: commands =>
    if breaksSequence previous command then []
    else command :: countingOn (some command.commandSequence) commands

/-- All numbers of consecutive commands count on. -/
theorem countingOn_eq {previous : Option UInt64} {commands : List OrderCommandRecordV1}
    (h : ConsecutiveAfter previous commands) : countingOn previous commands = commands := by
  induction commands generalizing previous with
  | nil => rfl
  | cons command commands ih =>
    obtain ⟨hfirst, hrest⟩ := (consecutiveAfter_cons previous command commands).mp h
    rw [countingOn, if_neg (by rw [hfirst]; exact Bool.false_ne_true), ih hrest]

/-! ## The report -/

/-- The report about an event of a command, by what the event reader has returned in its
place. -/
def placeFailure (command : OrderCommandRecordV1) (beforeSnapshot afterSnapshot : String)
    (generated : ExecutionEventRecordV1) (index : ℕ) :
    ReadOutcome ExecutionEventRecordV1 → ReplayFailure
  | .endOfLog =>
    { failureClass := .storedEventMissing
      commandSequence := command.commandSequence
      command := command
      expectedEvent := some generated
      eventIndexWithinCommand := index
      globalEventSequence := generated.eventSequence
      bookSnapshotBeforeCommand := beforeSnapshot
      bookSnapshotAfterCommand := afterSnapshot }
  | .failed =>
    { failureClass := .storedEventReadFailed
      commandSequence := command.commandSequence
      command := command
      eventIndexWithinCommand := index
      bookSnapshotBeforeCommand := beforeSnapshot
      bookSnapshotAfterCommand := afterSnapshot }
  | .recordRead stored =>
    { failureClass := .eventFieldMismatch
      commandSequence := command.commandSequence
      command := command
      expectedEvent := some generated
      actualEvent := some stored
      eventIndexWithinCommand := index
      globalEventSequence := generated.eventSequence
      field := (EventComparator.compare generated stored).field
      bookSnapshotBeforeCommand := beforeSnapshot
      bookSnapshotAfterCommand := afterSnapshot }

/-- The report about an event that the engine generates for a command. -/
def eventFailure (engine : InstrumentEngine) (command : OrderCommandRecordV1) (index : ℕ)
    (outcome : ReadOutcome ExecutionEventRecordV1) : ReplayFailure :=
  placeFailure command engine.orderBook.snapshot (engine.apply command).2.orderBook.snapshot
    ((engine.apply command).1.getD index {}) index outcome

/-- The answer behind the last command that is executed, by what the two readers return there. -/
def endResult (engine : InstrumentEngine) (commandsReplayed eventsCompared : UInt64) :
    ReadOutcome OrderCommandRecordV1 → ReadOutcome ExecutionEventRecordV1 → ReplayResult
  | .recordRead command, _ =>
    failedResult
      { failureClass := .commandSequenceBreak
        commandSequence := command.commandSequence
        command := command
        bookSnapshotBeforeCommand := engine.orderBook.snapshot } commandsReplayed eventsCompared
  | .failed, _ =>
    failedResult { failureClass := .commandReadFailed } commandsReplayed eventsCompared
  | .endOfLog, .recordRead extraEvent =>
    failedResult
      { failureClass := .extraStoredEvent
        actualEvent := some extraEvent
        globalEventSequence := extraEvent.eventSequence } commandsReplayed eventsCompared
  | .endOfLog, .failed =>
    failedResult { failureClass := .storedEventReadFailed } commandsReplayed eventsCompared
  | .endOfLog, .endOfLog =>
    { commandsReplayed := commandsReplayed, eventsCompared := eventsCompared }

/-- A replay that comes to its end is ok if both logs end there. -/
theorem endResult_ok_iff {engine : InstrumentEngine} {commandsReplayed eventsCompared : UInt64}
    {command : ReadOutcome OrderCommandRecordV1} {event : ReadOutcome ExecutionEventRecordV1} :
    (endResult engine commandsReplayed eventsCompared command event).ok = true ↔
      command = .endOfLog ∧ event = .endOfLog := by
  cases command <;> cases event <;> simp [endResult, failedResult]

/-- The answer of a replay that started with these counts on this engine, and the engine it
leaves behind. -/
structure Diagnosed (commandLog : ReadScript OrderCommandRecordV1)
    (eventLog : ReadScript ExecutionEventRecordV1) (commands : List OrderCommandRecordV1)
    (engine : InstrumentEngine) (commandsReplayed eventsCompared : UInt64)
    (replayed : ReplayResult × InstrumentEngine) : Prop where
  /-- An event is not found in its place. -/
  within : (commonPrefix eventLog.records (engine.applyAll commands).1).length <
      (engine.applyAll commands).1.length →
    ∃ before command after index, commands = before ++ command :: after ∧
      index < ((engine.applyAll before).2.apply command).1.length ∧
      (engine.applyAll before).1.length + index =
        (commonPrefix eventLog.records (engine.applyAll commands).1).length ∧
      replayed =
        (failedResult
          (eventFailure (engine.applyAll before).2 command index
            (eventLog.outcome ((engine.applyAll before).1.length + index)))
          (commandsReplayed + .ofNat before.length)
          (eventsCompared + .ofNat ((engine.applyAll before).1.length + index)),
          (engine.applyAll (before ++ [command])).2)
  /-- All events are found. -/
  behind : (commonPrefix eventLog.records (engine.applyAll commands).1).length =
      (engine.applyAll commands).1.length →
    replayed =
      (endResult (engine.applyAll commands).2 (commandsReplayed + .ofNat commands.length)
        (eventsCompared + .ofNat (engine.applyAll commands).1.length)
        (commandLog.outcome commands.length)
        (eventLog.outcome (engine.applyAll commands).1.length),
        (engine.applyAll commands).2)

/-! ## The loop over the events of a command -/

/-- The comparison goes on up to the first place where the event reader does not return what was
generated. -/
theorem compareEvents_eq (command : OrderCommandRecordV1) (beforeSnapshot afterSnapshot : String)
    (generated : List ExecutionEventRecordV1) (index : ℕ)
    (events : ReadScript ExecutionEventRecordV1) (eventsCompared : UInt64) :
    let i := (commonPrefix events.records generated).length
    compareEvents command beforeSnapshot afterSnapshot generated index events eventsCompared =
      if i = generated.length then .matched (events.drop i) (eventsCompared + .ofNat i)
      else .diverged
        (placeFailure command beforeSnapshot afterSnapshot (generated.getD i {}) (index + i)
          (events.outcome i)) (eventsCompared + .ofNat i) := by
  induction generated generalizing index events eventsCompared with
  | nil =>
    rw [commonPrefix_nil_right]
    exact congrArg (CompareOutcome.matched events) (UInt64.add_zero _).symm
  | cons event generated ih =>
    intro i
    -- the comparison stops at this event
    have hstop : commonPrefix events.records (event :: generated) = [] →
        compareEvents command beforeSnapshot afterSnapshot (event :: generated) index events
            eventsCompared =
          .diverged (placeFailure command beforeSnapshot afterSnapshot event index
            (events.outcome 0)) eventsCompared →
        compareEvents command beforeSnapshot afterSnapshot (event :: generated) index events
            eventsCompared =
          if i = (event :: generated).length then
            .matched (events.drop i) (eventsCompared + .ofNat i)
          else .diverged
            (placeFailure command beforeSnapshot afterSnapshot ((event :: generated).getD i {})
              (index + i) (events.outcome i)) (eventsCompared + .ofNat i) := by
      intro hnone hcompare
      have hzero : i = 0 := congrArg List.length hnone
      have hne : 0 ≠ (event :: generated).length := by
        rw [List.length_cons]
        omega
      rw [hcompare, hzero, if_neg hne]
      exact congrArg _ (UInt64.add_zero _).symm
    rcases events with _ | ⟨outcome, events⟩
    · exact hstop rfl rfl
    cases outcome with
    | endOfLog => exact hstop rfl rfl
    | failed => exact hstop rfl rfl
    | recordRead stored =>
      by_cases hequal : event = stored
      · subst hequal
        have hi : i = (commonPrefix (ReadScript.records events) generated).length + 1 :=
          congrArg List.length commonPrefix_cons_self
        have hcompare : compareEvents command beforeSnapshot afterSnapshot (event :: generated)
            index (.recordRead event :: events) eventsCompared =
              compareEvents command beforeSnapshot afterSnapshot generated (index + 1) events
                (eventsCompared + 1) :=
          if_pos ((EventComparator.compare_equal_iff event event).mpr rfl)
        rw [hcompare, ih (index + 1) events (eventsCompared + 1), hi, List.length_cons,
          FixedWidth.succ_add_ofNat, Nat.add_assoc, Nat.add_comm 1]
        exact if_congr Nat.succ_inj.symm rfl rfl
      · refine hstop (commonPrefix_cons_of_ne (Ne.symm hequal)) (if_neg fun h => hequal ?_)
        exact (EventComparator.compare_equal_iff event stored).mp h

/-! ## The loop over the commands -/

variable {engine : InstrumentEngine} {commandLog : ReadScript OrderCommandRecordV1}
  {eventLog : ReadScript ExecutionEventRecordV1} {commands : List OrderCommandRecordV1}
  {commandsReplayed eventsCompared : UInt64}

/-- Nothing is executed. -/
theorem diagnosed_nil (outcome : ReadOutcome OrderCommandRecordV1)
    (houtcome : commandLog.outcome 0 = outcome) :
    Diagnosed commandLog eventLog [] engine commandsReplayed eventsCompared
      (endResult engine commandsReplayed eventsCompared outcome (eventLog.outcome 0), engine) := by
  refine ⟨fun hlt => absurd hlt (Nat.not_lt_zero _), fun _ => ?_⟩
  subst houtcome
  change _ = (endResult engine (commandsReplayed + 0) (eventsCompared + 0) _ _, engine)
  rw [UInt64.add_zero, UInt64.add_zero]
  rfl

/-- The events of the first command are found, and the replay goes on. -/
theorem Diagnosed.cons {command : OrderCommandRecordV1} {replayed : ReplayResult × InstrumentEngine}
    (hfound : (engine.apply command).1 <+: eventLog.records)
    (h : Diagnosed commandLog (eventLog.drop (engine.apply command).1.length) commands
      (engine.apply command).2 (commandsReplayed + 1)
      (eventsCompared + .ofNat (engine.apply command).1.length) replayed) :
    Diagnosed (.recordRead command :: commandLog) eventLog (command :: commands) engine
      commandsReplayed eventsCompared replayed := by
  have hall := InstrumentEngine.applyAll_cons engine command
  have hplace : (commonPrefix eventLog.records (engine.applyAll (command :: commands)).1).length =
      (engine.apply command).1.length + (commonPrefix
        (ReadScript.records (eventLog.drop (engine.apply command).1.length))
        ((engine.apply command).2.applyAll commands).1).length := by
    rw [hall, ReadScript.records_drop hfound, commonPrefix_append, List.length_append]
  have hlength : (engine.applyAll (command :: commands)).1.length =
      (engine.apply command).1.length + ((engine.apply command).2.applyAll commands).1.length := by
    rw [hall, List.length_append]
  constructor
  · rw [hplace, hlength]
    intro hlt
    obtain ⟨before, command', after, index, rfl, hindex, hsum, rfl⟩ := h.within (by omega)
    refine ⟨command :: before, command', after, index, rfl, ?_, ?_, ?_⟩
    · rw [hall]
      exact hindex
    · rw [hall, List.length_append, ← hsum, Nat.add_assoc]
    · rw [List.cons_append, hall, hall, List.length_cons, List.length_append,
        ReadScript.outcome_drop, FixedWidth.succ_add_ofNat, UInt64.add_assoc, ← UInt64.ofNat_add,
        Nat.add_assoc]
  · rw [hplace, hlength]
    intro heq
    rw [h.behind (by omega), ReadScript.outcome_drop, FixedWidth.succ_add_ofNat, UInt64.add_assoc,
      ← UInt64.ofNat_add, hall]
    rfl

/-- The first command generates an event that is not found. -/
theorem diagnosed_place {command : OrderCommandRecordV1}
    (hnot : ¬ (engine.apply command).1 <+: eventLog.records) :
    let index := (commonPrefix eventLog.records (engine.apply command).1).length
    Diagnosed commandLog eventLog (command :: commands) engine commandsReplayed eventsCompared
      (failedResult (eventFailure engine command index (eventLog.outcome index)) commandsReplayed
        (eventsCompared + .ofNat index), (engine.apply command).2) := by
  intro index
  have hall := InstrumentEngine.applyAll_cons engine command commands
  have hlt : index < (engine.apply command).1.length := length_commonPrefix_lt hnot
  have hplace : (commonPrefix eventLog.records (engine.applyAll (command :: commands)).1).length =
      index := by rw [hall, commonPrefix_append_right hnot]
  have hlength : (engine.apply command).1.length ≤
      (engine.applyAll (command :: commands)).1.length := by
    rw [hall, List.length_append]
    exact Nat.le_add_right _ _
  refine ⟨fun _ => ⟨[], command, commands, index, rfl, hlt, ?_, ?_⟩, fun heq => ?_⟩
  · rw [hplace]
    exact Nat.zero_add _
  · rw [InstrumentEngine.applyAll_nil, List.length_nil, Nat.zero_add]
    exact congrArg (fun count => (failedResult _ count _, _)) (UInt64.add_zero _).symm
  · rw [hplace] at heq
    omega

/-- The answer of the main loop. -/
theorem replayLoop_diagnosed (hreach : engine.Reachable) (previous : Option UInt64) :
    Diagnosed commandLog eventLog (countingOn previous commandLog.records) engine commandsReplayed
      eventsCompared (replayLoop commandLog previous eventLog engine
        { commandsReplayed := commandsReplayed, eventsCompared := eventsCompared }) := by
  induction commandLog generalizing engine previous eventLog commandsReplayed eventsCompared with
  | nil => exact diagnosed_nil .failed rfl
  | cons outcome commandLog ih =>
    cases outcome with
    | failed => exact diagnosed_nil .failed rfl
    | endOfLog =>
      have hfinish : finishReplay eventLog
          { commandsReplayed := commandsReplayed, eventsCompared := eventsCompared } =
          endResult engine commandsReplayed eventsCompared .endOfLog (eventLog.outcome 0) := by
        rcases eventLog with _ | ⟨outcome, eventLog⟩
        · rfl
        · cases outcome <;> rfl
      unfold replayLoop
      rw [hfinish]
      exact diagnosed_nil .endOfLog rfl
    | recordRead command =>
      unfold replayLoop
      rw [ReadScript.records, countingOn]
      by_cases hbreak : breaksSequence previous command = true
      · rw [if_pos hbreak, if_pos hbreak]
        exact diagnosed_nil (.recordRead command) rfl
      · rw [if_neg hbreak, if_neg hbreak]
        dsimp only
        rw [compareEvents_eq]
        by_cases hfound : (engine.apply command).1 <+: eventLog.records
        · rw [commonPrefix_eq_right hfound, if_pos rfl]
          dsimp only
          rw [if_pos (hreach.apply command).validateInvariants]
          exact (ih (hreach.apply command) _).cons hfound
        · have hlt := length_commonPrefix_lt hfound
          rw [if_neg hlt.ne, Nat.zero_add]
          exact diagnosed_place hfound

/-- The whole answer of a replay on an engine that any commands have led to, whatever the two
readers return: at the first place where the event reader does not return what was generated
for the commands that count on, or else behind the last of these commands. -/
theorem replay_is_diagnosed (firstEventSequence : UInt64) (earlier : List OrderCommandRecordV1)
    (commandLog : ReadScript OrderCommandRecordV1)
    (eventLog : ReadScript ExecutionEventRecordV1) :
    let engine := ((InstrumentEngine.create firstEventSequence).applyAll earlier).2
    Diagnosed commandLog eventLog (countingOn none commandLog.records) engine 0 0
      (ReplayRunner.replay commandLog eventLog engine) :=
  replayLoop_diagnosed (InstrumentEngine.reachable_applyAll firstEventSequence earlier) none

end MatchingEngine
