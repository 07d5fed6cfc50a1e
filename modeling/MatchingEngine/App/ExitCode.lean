import MatchingEngine.App.Console
import MatchingEngine.App.StoredLogs
import MatchingEngine.Core.EventGrammar

/-!
# The exit code of a run

`run` writes both logs and then replays them from the disk. Its exit code is zero exactly for
commands that the two readers and the replay go through again. If it is zero, both logs are
complete, whatever the devices have done.
-/

namespace App

open MatchingEngine Text Wal

/-! ## The commands -/

/-- Commands that are read again from their log and pass the sequence test of a replay: the
numbers count on, the first is not zero, and zero is at most the last unless the first is one. -/
structure Replayable (commands : List OrderCommandRecordV1) : Prop where
  consecutive : ConsecutiveCommands commands
  first : ∀ front ∈ commands.head?, front.commandSequence ≠ 0 ∧
    (front.commandSequence = 1 ∨ front.commandSequence.toNat + commands.length ≤ 2 ^ 64 + 1)

/-- The test can be run. -/
instance (commands : List OrderCommandRecordV1) : Decidable (Replayable commands) :=
  decidable_of_iff
    ((commands.map OrderCommandRecordV1.commandSequence).IsChain (fun a b => b = a + 1) ∧
      ∀ front ∈ commands.head?, front.commandSequence ≠ 0 ∧
        (front.commandSequence = 1 ∨
          front.commandSequence.toNat + commands.length ≤ 2 ^ 64 + 1))
    ⟨fun h => ⟨h.1, h.2⟩, fun h => ⟨h.consecutive, h.first⟩⟩

theorem replayable_nil : Replayable [] := ⟨.nil, fun _ h => nomatch h⟩

/-- The command log as `write_commands` is to write it. -/
def commandBytes (commands : List OrderCommandRecordV1) (padding : ℕ → Padding) : List UInt8 :=
  logBytes OrderCommand.storage orderCommandRecordType commandStreamId
    OrderCommandRecordV1.commandSequence commands padding

/-- The event log as `write_events` is to write it. -/
def eventBytes (events : List ExecutionEventRecordV1) (padding : ℕ → Padding) : List UInt8 :=
  logBytes ExecutionEvent.storage executionEventRecordType eventStreamId
    ExecutionEventRecordV1.eventSequence events padding

variable {commands delivered : List OrderCommandRecordV1} {padding : ℕ → Padding}

/-- A complete command log delivers its commands if their numbers can be read. -/
theorem commandBytes_delivers_iff :
    (logScript OrderCommand.storage orderCommandRecordType
      (.file (commandBytes commands padding))).Delivers delivered ↔
      delivered = commands ∧ ∀ front ∈ commands.head?, front.commandSequence ≠ 0 ∧
        (front.commandSequence = 1 ∨
          front.commandSequence.toNat + commands.length ≤ 2 ^ 64 + 1) := by
  have hstreamId : commandStreamId ≠ 0 := by decide
  have hsize : frameLength OrderCommand.storage.size < 2 ^ 32 := by decide
  unfold commandBytes
  rw [logBytes_delivers_iff hsize hstreamId]
  refine and_congr_right fun _ => ?_
  cases commands with
  | nil => exact iff_of_true ⟨by decide, .inl rfl⟩ (by simp)
  | cons front rest =>
    simp only [List.head?_cons, Option.mem_some_iff, forall_eq']
    refine and_congr_right fun hpos => ?_
    have hcounts := @WalSegmentReader.countsOn_first_iff
      (logConfig commandStreamId OrderCommandRecordV1.commandSequence
        (front :: rest)).segmentHeader hpos rest.length
    refine hcounts.trans (or_congr_right ?_)
    change front.commandSequence.toNat + rest.length ≤ _ ↔ _
    rw [List.length_cons]
    omega

/-- A complete event log of a run delivers its events. -/
theorem eventBytes_delivers_iff {delivered : List ExecutionEventRecordV1} :
    (logScript ExecutionEvent.storage executionEventRecordType
      (.file (eventBytes (runEngine commands) padding))).Delivers delivered ↔
      delivered = runEngine commands := by
  have hstreamId : eventStreamId ≠ 0 := by decide
  have hsize : frameLength ExecutionEvent.storage.size < 2 ^ 32 := by decide
  have hfirst := eventLog_firstSequence commands
  unfold eventBytes
  rw [logBytes_delivers_iff hsize hstreamId]
  exact and_iff_left ⟨by rw [hfirst]; decide, .inl hfirst⟩

/-- Every command is answered. -/
theorem apply_ne_nil {engine : InstrumentEngine} (hreach : engine.Reachable)
    (command : OrderCommandRecordV1) : (engine.apply command).1 ≠ [] := by
  have hform : ∃ form : AnswerForm, form.Describes command (engine.apply command).1
      (engine.apply command).2.orderBook := by
    unfold InstrumentEngine.apply OrderBook.dispatch
    cases hkind : decodeCommandType command.commandType with
    | none => exact ⟨.rejected, engine.orderBook.reject_describes command _⟩
    | some kind =>
      cases kind with
      | newOrder => exact OrderBook.applyNewOrder_describes hreach.wellFormed hkind
      | cancelOrder => exact OrderBook.applyCancelOrder_describes _ hkind
      | replaceOrder => exact OrderBook.applyReplaceOrder_describes hreach.wellFormed hkind
  obtain ⟨form, hdescribes⟩ := hform
  intro hnil
  have hhead := hdescribes.head
  rw [hnil] at hhead
  cases hhead

/-- A run without events has no commands. -/
theorem runEngine_eq_nil_iff : runEngine commands = [] ↔ commands = [] := by
  cases commands with
  | nil => exact iff_of_true rfl rfl
  | cons command rest =>
    refine iff_of_false (fun hnil => ?_) (List.cons_ne_nil _ _)
    exact apply_ne_nil (InstrumentEngine.reachable_create firstSequence) command
      (List.append_eq_nil_iff.mp hnil).1

/-- An event log is no command log, unless both are empty. -/
theorem eventBytes_delivers_commands_iff :
    (logScript OrderCommand.storage orderCommandRecordType
      (.file (eventBytes (runEngine commands) padding))).Delivers delivered ↔
      delivered = [] ∧ commands = [] := by
  have hstreamId : eventStreamId ≠ 0 := by decide
  have hsize : frameLength ExecutionEvent.storage.size < 2 ^ 32 := by decide
  by_cases hsome : runEngine commands = []
  · have hbytes : eventBytes [] padding = logBytes OrderCommand.storage orderCommandRecordType
        eventStreamId OrderCommandRecordV1.commandSequence [] padding := rfl
    rw [hsome, hbytes, logBytes_delivers_iff (by decide) hstreamId,
      and_iff_left (runEngine_eq_nil_iff.mp hsome)]
    exact and_iff_left ⟨by decide, .inl rfl⟩
  · refine iff_of_false ?_ fun h => hsome (runEngine_eq_nil_iff.mpr h.2)
    exact logBytes_delivers_other hsize hstreamId (by decide) hsome

/-! ## The replay -/

/-- What a replay of two logs decides. -/
theorem replayResult_ok_iff {commandWal eventWal : FileEntry} :
    (replayResult commandWal eventWal).ok = true ↔
      ∃ replayed,
        (logScript OrderCommand.storage orderCommandRecordType commandWal).Delivers replayed ∧
        ConsecutiveCommands replayed ∧
        (logScript ExecutionEvent.storage executionEventRecordType eventWal).Delivers
          (runEngine replayed) :=
  replayLoop_ok_iff (InstrumentEngine.reachable_create firstSequence) _ none _ rfl

theorem replayWals_eq_zero_iff {commandWal eventWal : FileEntry} :
    replayWals commandWal eventWal = 0 ↔ (replayResult commandWal eventWal).ok = true := by
  unfold replayWals
  split_ifs with hok
  · exact iff_of_true rfl hok
  · exact iff_of_false (by decide) hok

/-- What `replay_wals` prints about logs that agree, with the counts of the replay. -/
def okReport (commands events : ℕ) : List UInt8 :=
  ascii "Replay OK: commands=" ++ decimal (commands % 2 ^ 64) ++
    ascii " events=" ++ decimal (events % 2 ^ 64) ++ [newline]

/-- What is printed about a replay that is ok. -/
theorem replayReport_of_ok {commandWal eventWal : FileEntry} {replayed : List OrderCommandRecordV1}
    (hdelivers : (logScript OrderCommand.storage orderCommandRecordType commandWal).Delivers
      replayed)
    (hok : (replayResult commandWal eventWal).ok = true) :
    replayReport (replayResult commandWal eventWal) =
      okReport replayed.length (runEngine replayed).length := by
  obtain ⟨hreplayed, hcompared⟩ := replayLoop_counts hdelivers hok
  have hcommands : (replayResult commandWal eventWal).commandsReplayed.toNat =
      replayed.length % 2 ^ 64 := by
    rw [← UInt64.toNat_ofNat', ← UInt64.zero_add (.ofNat replayed.length)]
    exact congrArg UInt64.toNat hreplayed
  have hevents : (replayResult commandWal eventWal).eventsCompared.toNat =
      (runEngine replayed).length % 2 ^ 64 := by
    rw [← UInt64.toNat_ofNat', ← UInt64.zero_add (.ofNat (runEngine replayed).length)]
    exact congrArg UInt64.toNat hcompared
  unfold replayReport okReport
  rw [if_pos hok, hcommands, hevents]

variable {eventPadding : ℕ → Padding}

/-- Two complete logs are replayed if the commands can be. -/
theorem replay_complete_iff :
    (replayResult (.file (commandBytes commands padding))
      (.file (eventBytes (runEngine commands) eventPadding))).ok = true ↔
      Replayable commands := by
  rw [replayResult_ok_iff]
  constructor
  · rintro ⟨replayed, hcommands, hconsecutive, -⟩
    obtain ⟨rfl, hfirst⟩ := commandBytes_delivers_iff.mp hcommands
    exact ⟨hconsecutive, hfirst⟩
  · intro h
    exact ⟨commands, commandBytes_delivers_iff.mpr ⟨rfl, h.first⟩, h.consecutive,
      eventBytes_delivers_iff.mpr rfl⟩

/-- An event log is replayed against itself only if it is empty. -/
theorem replay_itself_iff :
    (replayResult (.file (eventBytes (runEngine commands) eventPadding))
      (.file (eventBytes (runEngine commands) eventPadding))).ok = true ↔ commands = [] := by
  rw [replayResult_ok_iff]
  constructor
  · rintro ⟨replayed, hcommands, -⟩
    exact (eventBytes_delivers_commands_iff.mp hcommands).2
  · rintro rfl
    exact ⟨[], eventBytes_delivers_commands_iff.mpr ⟨rfl, rfl⟩, .nil,
      eventBytes_delivers_iff.mpr rfl⟩

/-! ## The disk -/

section Disks

variable {Place : Type} [DecidableEq Place] (disk : Disk Place) (place : Place)

/-- A file that has been written is found again. -/
theorem Disk.entry_update {entry : FileEntry} (hfile : entry ≠ .directory) :
    Disk.entry (Function.update disk place entry.bytes?) place = entry := by
  unfold Disk.entry
  rw [Function.update_self]
  cases entry with
  | absent => rfl
  | file bytes => rfl
  | directory => exact absurd rfl hfile

/-- What is at the other places stays. -/
theorem Disk.entry_update_of_ne {other : Place} (hne : other ≠ place)
    (bytes : Option (List UInt8)) :
    Disk.entry (Function.update disk place bytes) other = disk.entry other := by
  unfold Disk.entry
  rw [Function.update_of_ne hne]

/-- What is found at the two places after both logs have been written. -/
theorem Disk.entries_written {commandLog eventLog : FileEntry} (hcommand : commandLog ≠ .directory)
    (hevent : eventLog ≠ .directory) (other : Place) :
    let after := Function.update (Function.update disk other commandLog.bytes?) place
      eventLog.bytes?
    Disk.entry after place = eventLog ∧
      Disk.entry after other = if other = place then eventLog else commandLog := by
  intro after
  refine ⟨Disk.entry_update _ _ hevent, ?_⟩
  by_cases hsame : other = place
  · rw [if_pos hsame, hsame]
    exact Disk.entry_update _ _ hevent
  · rw [if_neg hsame]
    exact (Disk.entry_update_of_ne _ _ hsame _).trans (Disk.entry_update _ _ hcommand)

end Disks

/-! ## The run -/

section Logs

variable {commandPadding eventPadding : ℕ → Padding} {commandOutcomes eventOutcomes :
  List SinkOutcome}

/-- Two logs that were written and then replayed hold everything. They may be one file only if
there are no commands. -/
theorem written_of_replay {same : Prop} [Decidable same]
    (hcommandLog : (writeCommands commands commandPadding commandOutcomes).1 = true)
    (heventLog : (writeEvents (runEngine commands) eventPadding eventOutcomes).1 = true) :
    let events := runEngine commands
    let eventLog := (writeEvents events eventPadding eventOutcomes).2
    let commandLog := if same then eventLog
      else (writeCommands commands commandPadding commandOutcomes).2
    (replayResult commandLog eventLog).ok = true →
      Replayable commands ∧ (same → commands = []) ∧
        commandLog = .file (if same then eventBytes events eventPadding
          else commandBytes commands commandPadding) ∧
        eventLog = .file (eventBytes events eventPadding) ∧
        replayReport (replayResult commandLog eventLog) =
          okReport commands.length events.length := by
  intro events eventLog commandLog hok
  obtain ⟨replayed, hcommands, -, hevents⟩ := replayResult_ok_iff.mp hok
  have hevent : eventLog = .file (eventBytes events eventPadding) :=
    writeLog_of_delivers (by decide) heventLog hevents
  by_cases hsame : same
  · have hcommand : commandLog = .file (eventBytes events eventPadding) := by
      rw [← hevent]
      exact if_pos hsame
    rw [hcommand, hevent] at hok
    rw [hcommand] at hcommands
    have hnone := replay_itself_iff.mp hok
    obtain ⟨rfl, -⟩ := eventBytes_delivers_commands_iff.mp hcommands
    rw [hcommand, hevent, replayReport_of_ok hcommands hok, if_pos hsame]
    refine ⟨hnone ▸ replayable_nil, fun _ => hnone, rfl, rfl, ?_⟩
    rw [← hnone]
  · have hwritten : commandLog = (writeCommands commands commandPadding commandOutcomes).2 :=
      if_neg hsame
    have hcommand : commandLog = .file (commandBytes commands commandPadding) := by
      rw [hwritten] at hcommands ⊢
      exact writeLog_of_delivers (by decide) hcommandLog hcommands
    rw [hcommand, hevent] at hok
    rw [hcommand] at hcommands
    obtain ⟨rfl, -⟩ := commandBytes_delivers_iff.mp hcommands
    rw [hcommand, hevent, replayReport_of_ok hcommands hok, if_neg hsame]
    exact ⟨replay_complete_iff.mp hok, fun h => absurd h hsame, rfl, rfl, rfl⟩

end Logs

section Runs

variable {Place : Type} [DecidableEq Place] (surroundings : Surroundings Place)
  (disk : Disk Place) (scenarioPath : List UInt8) (wals : List (List UInt8))

/-- A run ends with the exit code one, or it has written both logs and replays them. -/
theorem runCommand_cases :
    let commandWal := wals[0]?.getD (ascii "wal/commands.wal")
    let eventWal := wals[1]?.getD (ascii "wal/events.wal")
    let scenario := loadScenario scenarioPath (disk (surroundings.place scenarioPath))
    let commandLog := writeCommands scenario.commands surroundings.commandPadding
      surroundings.commandOutcomes
    let events := runEngine scenario.commands
    let eventLog := writeEvents events surroundings.eventPadding surroundings.eventOutcomes
    let command := if surroundings.place commandWal = surroundings.place eventWal
      then eventLog.2 else commandLog.2
    let outcome := runCommand surroundings disk (scenarioPath :: wals)
    ¬ (scenario.ok = true ∧ commandLog.1 = true ∧ eventLog.1 = true) ∧ outcome.exitCode = 1 ∨
      (scenario.ok = true ∧ commandLog.1 = true ∧ eventLog.1 = true) ∧
        outcome =
          { exitCode := replayWals command eventLog.2
            out := runReport commandWal eventWal scenario.commands events ++
              replayReport (replayResult command eventLog.2)
            disk := Function.update
              (Function.update disk (surroundings.place commandWal) commandLog.2.bytes?)
              (surroundings.place eventWal) eventLog.2.bytes? } := by
  intro commandWal eventWal scenario commandLog events eventLog command outcome
  cases hscenario : scenario.ok with
  | false =>
    refine .inl ⟨fun h => Bool.false_ne_true h.1, ?_⟩
    change CommandOutcome.exitCode (if scenario.ok = false then _ else _) = 1
    rw [if_pos hscenario]
  | true =>
    have houtcome : outcome = if commandLog.1 = false then _ else _ :=
      if_neg (by rw [hscenario]; exact Bool.noConfusion)
    cases hcommandLog : commandLog.1 with
    | false =>
      refine .inl ⟨fun h => Bool.false_ne_true h.2.1, ?_⟩
      rw [houtcome, if_pos hcommandLog]
    | true =>
      rw [if_neg (by rw [hcommandLog]; exact Bool.noConfusion)] at houtcome
      cases heventLog : eventLog.1 with
      | false =>
        refine .inl ⟨fun h => Bool.false_ne_true h.2.2, ?_⟩
        rw [houtcome]
        exact congrArg CommandOutcome.exitCode (if_pos heventLog)
      | true =>
        obtain ⟨hevent, hcommand⟩ := Disk.entries_written disk (surroundings.place eventWal)
          (writeLog_ne_directory (by decide) hcommandLog)
          (writeLog_ne_directory (by decide) heventLog) (surroundings.place commandWal)
        refine .inr ⟨⟨rfl, rfl, rfl⟩, houtcome.trans
          ((if_neg (by rw [heventLog]; exact Bool.noConfusion)).trans ?_)⟩
        exact congrArg₂ (fun command event =>
          ({ exitCode := replayWals command event
             out := runReport commandWal eventWal scenario.commands events ++
               replayReport (replayResult command event)
             disk := Function.update
               (Function.update disk (surroundings.place commandWal) commandLog.2.bytes?)
               (surroundings.place eventWal) eventLog.2.bytes? } : CommandOutcome Place))
          hcommand hevent

/-- The exit code of a run that leaves complete logs. -/
theorem exitCode_of_complete :
    let scenario := loadScenario scenarioPath (disk (surroundings.place scenarioPath))
    writeCommands scenario.commands surroundings.commandPadding surroundings.commandOutcomes =
        (true, .file (commandBytes scenario.commands surroundings.commandPadding)) →
      writeEvents (runEngine scenario.commands) surroundings.eventPadding
          surroundings.eventOutcomes =
        (true, .file (eventBytes (runEngine scenario.commands) surroundings.eventPadding)) →
      (runCommand surroundings disk (scenarioPath :: wals)).exitCode =
        if scenario.ok = false then 1
        else if Replayable scenario.commands ∧
            (surroundings.place (wals[0]?.getD (ascii "wal/commands.wal")) =
              surroundings.place (wals[1]?.getD (ascii "wal/events.wal")) →
                scenario.commands = [])
        then 0 else 2 := by
  intro scenario hcommandLog heventLog
  have hcases := runCommand_cases surroundings disk scenarioPath wals
  dsimp only at hcases
  rw [hcommandLog, heventLog] at hcases
  rcases hcases with ⟨hnot, hcode⟩ | ⟨⟨hscenario, -, -⟩, houtcome⟩
  · rw [if_pos (by simpa using hnot), hcode]
  · rw [if_neg (by rw [hscenario]; exact Bool.noConfusion), houtcome]
    refine if_congr ?_ rfl rfl
    split_ifs with hsame
    · rw [replay_itself_iff]
      exact ⟨fun hnone => ⟨hnone ▸ replayable_nil, fun _ => hnone⟩, fun h => h.2 hsame⟩
    · rw [replay_complete_iff]
      exact (and_iff_left fun h => absurd h hsame).symm

/-- The exit code of a run on devices that do not fail: one if the scenario is refused, zero if
its commands can be replayed and the logs are apart, and two otherwise. -/
theorem run_exit_code
    (hcommandOutcomes : ∀ outcome ∈ surroundings.commandOutcomes, outcome.fails = false)
    (heventOutcomes : ∀ outcome ∈ surroundings.eventOutcomes, outcome.fails = false) :
    let commandWal := surroundings.place (wals[0]?.getD (ascii "wal/commands.wal"))
    let eventWal := surroundings.place (wals[1]?.getD (ascii "wal/events.wal"))
    let scenario := loadScenario scenarioPath (disk (surroundings.place scenarioPath))
    (runCommand surroundings disk (scenarioPath :: wals)).exitCode =
      if scenario.ok = false then 1
      else if Replayable scenario.commands ∧ (commandWal = eventWal → scenario.commands = [])
      then 0 else 2 :=
  exitCode_of_complete surroundings disk scenarioPath wals
    (writeLog_eq (by decide) _ _ _ _ hcommandOutcomes)
    (writeLog_eq (by decide) _ _ _ _ heventOutcomes)

/-- A scenario whose second command is missing is run and then not replayed. -/
theorem run_exit_code_gap :
    let surroundings : Surroundings (List UInt8) :=
      { place := id, eventOutcomes := [.done 0, .done 7] }
    let disk : Disk (List UInt8) := fun path =>
      if path = ascii "s" then some (ascii "CANCEL 1 1 1 1\nCANCEL 3 1 1 1\n") else none
    (runCommand surroundings disk [ascii "s"]).exitCode = 2 := by
  intro surroundings disk
  refine (run_exit_code surroundings disk (ascii "s") [] (by decide) (by decide)).trans ?_
  decide +kernel

variable {surroundings disk scenarioPath wals}

/-- A run with the exit code zero, whatever the devices did: the commands of the scenario have
been executed, can be replayed, and both logs hold everything. -/
theorem run_ok_complete
    (hok : (runCommand surroundings disk (scenarioPath :: wals)).exitCode = 0) :
    let commandWal := wals[0]?.getD (ascii "wal/commands.wal")
    let eventWal := wals[1]?.getD (ascii "wal/events.wal")
    let scenario := loadScenario scenarioPath (disk (surroundings.place scenarioPath))
    let events := runEngine scenario.commands
    scenario.ok = true ∧ Replayable scenario.commands ∧
      (surroundings.place commandWal = surroundings.place eventWal → scenario.commands = []) ∧
      runCommand surroundings disk (scenarioPath :: wals) =
        { exitCode := 0
          out := runReport commandWal eventWal scenario.commands events ++
            okReport scenario.commands.length events.length
          disk := Function.update
            (Function.update disk (surroundings.place commandWal)
              (some (commandBytes scenario.commands surroundings.commandPadding)))
            (surroundings.place eventWal)
            (some (eventBytes events surroundings.eventPadding)) } := by
  intro commandWal eventWal scenario events
  rcases runCommand_cases surroundings disk scenarioPath wals with
    ⟨-, hcode⟩ | ⟨⟨hscenario, hcommandLog, heventLog⟩, houtcome⟩
  · rw [hcode] at hok
    cases hok
  · have hcode : replayWals _ _ = 0 := (congrArg CommandOutcome.exitCode houtcome).symm.trans hok
    obtain ⟨hreplayable, hempty, hcommand, hevent, hreport⟩ :=
      written_of_replay hcommandLog heventLog (replayWals_eq_zero_iff.mp hcode)
    refine ⟨hscenario, hreplayable, hempty, houtcome.trans ?_⟩
    rw [hcode, hreport, hevent]
    by_cases hsame : surroundings.place commandWal = surroundings.place eventWal
    · rw [hsame, Function.update_idem, Function.update_idem]
      rfl
    · rw [if_neg hsame, if_neg hsame] at hcommand
      rw [hcommand]
      rfl

/-- A run whose events are written with a short write. -/
theorem run_ok_complete_short :
    let surroundings : Surroundings (List UInt8) :=
      { place := id, eventOutcomes := [.done 0, .done 7, .done 90] }
    let scenario := ascii "NEW 1 1 1 1 SELL 10 5 GTC\n"
    let disk : Disk (List UInt8) := fun path => if path = ascii "s" then some scenario else none
    let commands := (loadScenario (ascii "s") (some scenario)).commands
    (runCommand surroundings disk [ascii "s", ascii "c", ascii "e"]).disk =
      Function.update
        (Function.update disk (ascii "c") (some (commandBytes commands fun _ => {})))
        (ascii "e") (some (eventBytes (runEngine commands) fun _ => {})) := by
  intro surroundings scenario disk commands
  have hcode : (runCommand surroundings disk [ascii "s", ascii "c", ascii "e"]).exitCode = 0 := by
    refine (exitCode_of_complete surroundings disk (ascii "s") [ascii "c", ascii "e"] ?_ ?_).trans
      ?_
    · exact writeLog_eq (by decide) _ _ _ _ (by decide)
    · exact writeLog_eq (by decide) _ _ _ _ (by decide)
    · decide +kernel
  obtain ⟨-, -, -, houtcome⟩ := run_ok_complete hcode
  exact congrArg CommandOutcome.disk houtcome

end Runs

end App
