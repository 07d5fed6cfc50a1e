import MatchingEngine.App.EventLog
import MatchingEngine.App.Main
import MatchingEngine.Core.ReplayExact

/-!
# From the commands to the replay

What `write_commands` and `write_events` leave on disk is read back as the records that
were written, so `replay_wals` compares the events of the engine with themselves.
-/

namespace App

open MatchingEngine Wal FixedWidth

/-! ## What is written -/

section Writing

variable {α : Type} {layout : StorageLayout α} {recordType : UInt32} {config : WalWriterConfig}
  {writer : WalSegmentWriter} {sequence : UInt64} {bytes : List UInt8}

/-- All records are appended to a writer that is ready. -/
theorem appendRecords_of_ready (h : WalSegmentWriter.Ready config sequence bytes writer)
    (records : List α) (padding : ℕ → Padding) :
    appendRecords layout recordType records padding writer =
      (true, writer.appendAll (storageAppends layout recordType padding records)) := by
  induction records generalizing writer sequence bytes padding with
  | nil => rfl
  | cons record records ih =>
    obtain ⟨hresult, hready⟩ := h.append (storageAppend layout recordType record (padding 0))
    have hstatus : (appendStorageRecord layout recordType record (padding 0) writer).1.status =
        .appended := by rw [appendStorageRecord, hresult]
    rw [appendRecords, if_neg (not_not.mpr hstatus), storageAppends_cons]
    exact ih hready _

/-- A stored record fits its length field. -/
theorem storageAppends_fits (hsize : frameLength layout.size < 2 ^ 32) {padding : ℕ → Padding}
    {records : List α} : ∀ call ∈ storageAppends layout recordType padding records, call.Fits := by
  intro call hcall
  obtain ⟨i, hi, rfl⟩ := List.mem_mapIdx.mp hcall
  unfold Append.Fits storageAppend
  rwa [layout.toBytes_length]

/-- Without a failure of the device the log becomes the segment with all records. -/
theorem writeLog_eq (hsize : frameLength layout.size < 2 ^ 32) (streamId : UInt64)
    (sequenceOf : α → UInt64) (records : List α) (padding : ℕ → Padding)
    {outcomes : List SinkOutcome} (houtcomes : ∀ outcome ∈ outcomes, outcome.fails = false) :
    writeLog layout recordType streamId sequenceOf records padding outcomes =
      (true, .file ((logConfig streamId sequenceOf records).segmentBytes
        (storageAppends layout recordType padding records))) := by
  have hready := WalSegmentWriter.ready_create_fresh (logConfig streamId sequenceOf records)
    (.inl rfl) houtcomes
  have hbytes := hready.appendEach (storageAppends layout recordType padding records)
  rw [WalWriterConfig.appendedFrom_eq (storageAppends_fits hsize), WalWriterConfig.segmentBytes,
    WalWriterConfig.framesBytes, List.append_nil, ← WalWriterConfig.segmentBytes] at hbytes
  obtain ⟨hstatus, hcommitted⟩ := hbytes.commit
  unfold writeLog
  simp only [appendRecords_of_ready hready]
  rw [if_neg (by simp)]
  by_cases hempty : records = []
  · rw [if_pos hempty, hbytes.destroy]
  · rw [if_neg hempty, hcommitted.destroy, decide_eq_true hstatus]

end Writing

/-! ## What is read -/

section Reading

variable {α : Type} {layout : StorageLayout α} {recordType : UInt32} {file : List UInt8}
  {reader : WalSegmentReader}

/-- A record of the log holds this domain record. -/
def Stores (layout : StorageLayout α) (recordType : UInt32) (stored : WalRecord) (record : α) :
    Prop :=
  stored.recordType = recordType ∧ ∃ tail, stored.payload = layout.toBytes record tail

/-- A log of appended domain records holds these records. -/
theorem records_store (config : WalWriterConfig) (sequence : UInt64) (padding : ℕ → Padding)
    (records : List α) :
    List.Forall₂ (Stores layout recordType)
      (config.records sequence (storageAppends layout recordType padding records)) records := by
  induction records generalizing sequence padding with
  | nil => exact .nil
  | cons record records ih =>
    rw [storageAppends_cons, WalWriterConfig.records]
    exact .cons ⟨rfl, _, rfl⟩ (ih _ _)

/-- A call of `read_next` hands out a record exactly when its status says so. -/
theorem readNext_isSome (file : List UInt8) (reader : WalSegmentReader) :
    (reader.readNext file).2.1.isSome = true ↔ (reader.readNext file).1.status = .recordRead := by
  unfold WalSegmentReader.readNext WalSegmentReader.refuse
  by_cases hopen : reader.openResult.status ≠ .recordRead
  · rw [if_pos hopen]
    simp [hopen]
  rw [if_neg hopen]
  split
  · simp
  dsimp only
  split
  · rename_i hheader
    simpa using hheader
  split
  · rename_i hpayload
    simpa using hpayload
  split_ifs <;> simp

/-- A stored record is read as the domain record. -/
theorem replayReadNext_of_some {result : WalReadResult} {view : WalRecordView}
    {after : WalSegmentReader} (hread : reader.readNext file = (result, some view, after))
    {record : α}
    (hstores : Stores layout recordType
      ⟨view.header.recordType, result.position, view.payload⟩ record) :
    replayReadNext layout recordType file reader = (.recordRead record, after) := by
  have hstatus : result.status = .recordRead := by
    have h := (readNext_isSome file reader).mp (by rw [hread]; rfl)
    rwa [hread] at h
  obtain ⟨htype, tail, hpayload⟩ := hstores
  simp only at htype hpayload
  have hlength : view.payload.length = layout.size := by rw [hpayload, layout.toBytes_length]
  have hstorage : readStorageRecord layout recordType file reader =
      (result, some record, after) := by
    unfold readStorageRecord readNextRecord
    simp only [hread, hstatus, ne_eq, not_true, if_false, Option.map_some, Option.getD_some, htype,
      hlength]
    rw [hpayload, layout.ofBytes_toBytes]
  unfold replayReadNext
  simp only [hstorage, hstatus, Option.elim_some]

/-- The end of the log is read as such. -/
theorem replayReadNext_of_endOfLog {result : WalReadResult} {after : WalSegmentReader}
    (hread : reader.readNext file = (result, none, after)) (hend : result.status = .endOfLog) :
    replayReadNext layout recordType file reader = (.endOfLog, after) := by
  have hrecord : readNextRecord file reader = (result, none, after) := by
    unfold readNextRecord
    rw [hread, if_pos (by rw [hend]; decide)]
  have hstorage : readStorageRecord layout recordType file reader = (result, none, after) := by
    unfold readStorageRecord
    rw [hrecord, if_pos (by rw [hend]; decide)]
  unfold replayReadNext
  simp only [hstorage, hend]

/-- A log that is read to its end delivers the domain records stored in it. -/
theorem readScript_delivers {calls : ℕ} {read : WalSegmentReader.ReadBack}
    (hread : WalSegmentReader.readRecords file calls reader = some read)
    (hend : read.final.status = .endOfLog) {records : List α}
    (hrecords : List.Forall₂ (Stores layout recordType) read.records records) :
    (readScript layout recordType file calls reader).Delivers records := by
  induction calls generalizing reader read records with
  | zero => cases hread
  | succ calls ih =>
    unfold WalSegmentReader.readRecords at hread
    unfold readScript
    generalize hnext : reader.readNext file = next at hread
    obtain ⟨result, view, after⟩ := next
    cases view with
    | none =>
      obtain rfl := Option.some.inj hread
      cases hrecords
      dsimp only
      rw [replayReadNext_of_endOfLog hnext hend]
      exact ⟨_, rfl⟩
    | some view =>
      obtain ⟨rest, hrest, rfl⟩ := Option.map_eq_some_iff.mp hread
      cases hrecords with
      | cons hstores hstored =>
        dsimp only
        rw [replayReadNext_of_some hnext hstores, ReadScript.delivers_recordRead_cons]
        exact ⟨_, rfl, ih hrest hend hstored⟩

variable (layout recordType) in
/-- A log that was written without a failure delivers its records to a replay. -/
theorem writeLog_delivers (hsize : frameLength layout.size < 2 ^ 32) {streamId : UInt64}
    (hstream : streamId ≠ 0) {sequenceOf : α → UInt64} {records : List α}
    (hfirst : (logConfig streamId sequenceOf records).firstSequence ≠ 0)
    (hcounts : WalSegmentReader.CountsOn (logConfig streamId sequenceOf records).segmentHeader
      (logConfig streamId sequenceOf records).firstSequence records.length)
    (padding : ℕ → Padding) {outcomes : List SinkOutcome}
    (houtcomes : ∀ outcome ∈ outcomes, outcome.fails = false) :
    (writeLog layout recordType streamId sequenceOf records padding outcomes).1 = true ∧
      (logScript layout recordType
        (writeLog layout recordType streamId sequenceOf records padding outcomes).2).Delivers
          records := by
  have hepoch : epoch ≠ 0 := by decide
  have hfits : ∀ call ∈ storageAppends layout recordType padding records, call.Fits :=
    storageAppends_fits hsize
  obtain ⟨last, hread⟩ := readAll_segment ⟨hstream, hepoch, hfirst⟩ hfits
    (by rwa [storageAppends_length])
  rw [writeLog_eq hsize streamId sequenceOf records padding houtcomes]
  exact ⟨rfl, readScript_delivers hread rfl (records_store _ _ padding records)⟩

end Reading

/-! ## The numbers of the two logs -/

/-- The commands have consecutive numbers, which start at one or later and do not wrap. -/
def NumberedCommands (commands : List OrderCommandRecordV1) : Prop :=
  ∃ first, 1 ≤ first ∧
    commands.map (fun command => command.commandSequence.toNat) =
      List.range' first commands.length

variable {commands : List OrderCommandRecordV1}

/-- The number of a command. -/
theorem commandSequence_getElem {first : ℕ}
    (hnumbers : commands.map (fun command => command.commandSequence.toNat) =
      List.range' first commands.length) {i : ℕ} (hi : i < commands.length) :
    commands[i].commandSequence.toNat = first + i := by
  have hvalue := List.getElem_of_eq hnumbers (by rwa [List.length_map])
  rwa [List.getElem_map, List.getElem_range', Nat.one_mul] at hvalue

/-- Replay accepts the numbers of the commands. -/
theorem NumberedCommands.consecutive (h : NumberedCommands commands) :
    ConsecutiveCommands commands := by
  obtain ⟨first, -, hnumbers⟩ := h
  unfold ConsecutiveCommands
  rw [List.isChain_iff_getElem]
  intro i hi
  rw [List.length_map] at hi
  rw [List.getElem_map, List.getElem_map]
  have hthis := commandSequence_getElem hnumbers (Nat.lt_of_succ_lt hi)
  have hnext := commandSequence_getElem hnumbers hi
  have hrange := commands[i + 1].commandSequence.toNat_lt
  apply UInt64.toNat_inj.mp
  rw [UInt64.toNat_add, UInt64.toNat_one]
  omega

/-- The reader of the command log expects the numbers of the commands. -/
theorem NumberedCommands.countsOn (h : NumberedCommands commands) :
    WalSegmentReader.CountsOn
      (logConfig commandStreamId OrderCommandRecordV1.commandSequence commands).segmentHeader
      (logConfig commandStreamId OrderCommandRecordV1.commandSequence commands).firstSequence
      commands.length := by
  obtain ⟨first, hfirst, hnumbers⟩ := h
  cases commands with
  | nil => exact Or.inl rfl
  | cons front rest =>
    have hfront : front.commandSequence.toNat = first :=
      commandSequence_getElem hnumbers (Nat.succ_pos rest.length)
    have hlast := commandSequence_getElem hnumbers (Nat.lt_succ_self rest.length)
    have hrange := (front :: rest)[rest.length].commandSequence.toNat_lt
    refine WalSegmentReader.countsOn_of_le (fun hzero => ?_) ?_
    · have hvalue := congrArg UInt64.toNat hzero
      change front.commandSequence.toNat = 0 at hvalue
      omega
    · change front.commandSequence.toNat + (rest.length + 1) ≤ 2 ^ 64
      omega

/-- The first command has a number that a segment can start with. -/
theorem NumberedCommands.first_ne_zero (h : NumberedCommands commands) :
    (logConfig commandStreamId OrderCommandRecordV1.commandSequence commands).firstSequence ≠
      0 := by
  obtain ⟨first, hfirst, hnumbers⟩ := h
  intro hzero
  cases commands with
  | nil => exact absurd hzero (by decide)
  | cons front rest =>
    have hfront : front.commandSequence.toNat = first :=
      commandSequence_getElem hnumbers (Nat.succ_pos rest.length)
    have hvalue : front.commandSequence.toNat = 0 := congrArg UInt64.toNat hzero
    omega

/-- The event log starts with the number one, whether there are events or not. -/
theorem eventLog_firstSequence (commands : List OrderCommandRecordV1) :
    (logConfig eventStreamId ExecutionEventRecordV1.eventSequence
      (runEngine commands)).firstSequence = 1 := by
  have hnumbers := (InstrumentEngine.applyAll_numbered firstSequence commands).eventNumbers
  change (runEngine commands).map _ = numbersFrom 1 (runEngine commands).length at hnumbers
  generalize runEngine commands = events at hnumbers ⊢
  cases events with
  | nil => rfl
  | cons event rest =>
    rw [List.map_cons, List.length_cons, numbersFrom_succ'] at hnumbers
    exact (List.cons.inj hnumbers).1

/-! ## The replay -/

/-- Commands with consecutive numbers are written, executed, their events written, and both
logs replayed: without a failure of the devices the replay is ok and has gone through all
commands and all events. -/
theorem pipeline_replays (hcommands : NumberedCommands commands)
    (commandPadding eventPadding : ℕ → Padding) {commandOutcomes eventOutcomes : List SinkOutcome}
    (hcommandOutcomes : ∀ outcome ∈ commandOutcomes, outcome.fails = false)
    (heventOutcomes : ∀ outcome ∈ eventOutcomes, outcome.fails = false) :
    let events := runEngine commands
    let commandLog := writeCommands commands commandPadding commandOutcomes
    let eventLog := writeEvents events eventPadding eventOutcomes
    commandLog.1 = true ∧ eventLog.1 = true ∧
      replayWals commandLog.2 eventLog.2 = 0 ∧
      (replayResult commandLog.2 eventLog.2).commandsReplayed = .ofNat commands.length ∧
      (replayResult commandLog.2 eventLog.2).eventsCompared = .ofNat events.length := by
  intro events commandLog eventLog
  have hone := eventLog_firstSequence commands
  have hfirst : (logConfig eventStreamId ExecutionEventRecordV1.eventSequence
      events).firstSequence ≠ 0 := by
    rw [hone]
    decide
  obtain ⟨hcommandLog, hcommandScript⟩ := writeLog_delivers OrderCommand.storage
    orderCommandRecordType (by decide) (by decide) hcommands.first_ne_zero hcommands.countsOn
    commandPadding hcommandOutcomes
  obtain ⟨heventLog, heventScript⟩ := writeLog_delivers ExecutionEvent.storage
    executionEventRecordType (by decide) (by decide) hfirst (Or.inl hone) eventPadding
    heventOutcomes
  have hok : (replayResult commandLog.2 eventLog.2).ok = true :=
    (replayLoop_ok_iff (InstrumentEngine.reachable_create firstSequence) _ none _ rfl).mpr
      ⟨commands, hcommandScript, hcommands.consecutive, heventScript⟩
  obtain ⟨hreplayed, hcompared⟩ := replayLoop_counts hcommandScript hok
  exact ⟨hcommandLog, heventLog, if_pos hok, hreplayed.trans (UInt64.zero_add _),
    hcompared.trans (UInt64.zero_add _)⟩

/-- A sell order, a command of an unknown kind and a replacement that is rejected. -/
theorem pipeline_replays_rejections :
    let commands : List OrderCommandRecordV1 :=
      [{ commandSequence := 5, orderId := 1, priceTicks := 100, quantityLots := 3
         instrumentId := 1, commandType := 1, side := 2, timeInForce := 1 },
        { commandSequence := 6, commandType := 9 },
        { commandSequence := 7, orderId := 2, commandType := 3 }]
    replayWals (writeCommands commands (fun _ => {}) [.done 0, .done 9, .done 4]).2
      (writeEvents (runEngine commands) (fun i => { record := .ofNat i }) []).2 = 0 := by
  intro commands
  have hnumbers : NumberedCommands commands := ⟨5, by decide, by decide⟩
  exact (pipeline_replays hnumbers (fun _ => {}) (fun i => { record := .ofNat i }) (by decide)
    (by decide)).2.2.1

end App
