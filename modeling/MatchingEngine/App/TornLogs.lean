import MatchingEngine.App.Dumps
import MatchingEngine.Core.Diagnosis

/-!
# Two logs that were cut off

A crash leaves a part of each log of a run. How much of the run a replay still goes through,
and what it reports at the end of it, depends on two lengths only.
-/

namespace App

open MatchingEngine Text Wal

/-! ## The records before a cut -/

section Segments

variable {config : WalWriterConfig} {calls : List Append} {cut : ℕ}

/-- A record ends at the cut exactly if the records before it reach it. -/
theorem isRecordBoundary_iff (hcut : cut ≤ boundaryAfter calls) :
    IsRecordBoundary calls cut ↔ boundaryAfter (recordsBefore calls cut) = cut := by
  obtain ⟨later, hsplit, hlength, -⟩ := recordsWithin_split calls (cut - segmentHeaderSize)
  constructor
  · rintro ⟨earlier, hfirst, rfl⟩
    have hroom : WalWriterConfig.framesLength earlier ≤
        boundaryAfter earlier - segmentHeaderSize := by
      unfold boundaryAfter
      omega
    have hge := boundaryAfter_mono (prefix_recordsWithin hfirst hroom)
    unfold recordsBefore boundaryAfter at *
    omega
  · intro heq
    exact ⟨recordsBefore calls cut, ⟨later, hsplit.symm⟩, heq.symm⟩

/-- Before the end of a segment a record is missing, if there is one. -/
theorem recordsBefore_length_le (hcut : cut < boundaryAfter calls) :
    (recordsBefore calls cut).length ≤ calls.length - 1 := by
  obtain ⟨later, hsplit, hlength, -⟩ := recordsWithin_split calls (cut - segmentHeaderSize)
  change calls = recordsBefore calls cut ++ later at hsplit
  have hsum := congrArg List.length hsplit
  rw [List.length_append] at hsum
  cases later with
  | cons call later =>
    rw [List.length_cons] at hsum
    omega
  | nil =>
    rw [List.append_nil] at hsplit
    unfold recordsBefore at hsplit
    rw [← hsplit] at hlength
    unfold boundaryAfter at hcut
    cases calls with
    | nil => exact Nat.zero_le _
    | cons call calls =>
      have hpos := (frameLength_bounds call.payload.length).1
      have hlong : WalWriterConfig.framesLength (call :: calls) =
          frameLength call.payload.length + WalWriterConfig.framesLength calls := rfl
      unfold recordHeaderSize at hpos
      omega

/-- A segment that was cut off is read up to the last record before the cut, and to the end of
the log only if the cut is there. -/
theorem readAll_cut (hvalid : config.Valid) (haligned : ∀ call ∈ calls, call.Aligned)
    (hcounts : WalSegmentReader.CountsOn config.segmentHeader config.firstSequence
      (calls.length - 1)) (hcut : cut ≤ boundaryAfter calls) :
    ∃ read, WalSegmentReader.readAll (.file ((config.segmentBytes calls).take cut)) = some read ∧
      read.records = config.records config.firstSequence (recordsBefore calls cut) ∧
      (read.final.status = .endOfLog ↔ IsRecordBoundary calls cut) := by
  have hwhole := WalWriterConfig.segmentBytes_length config calls
  rcases hcut.eq_or_lt with rfl | hlt
  · -- nothing is missing
    have hall : recordsBefore calls (boundaryAfter calls) = calls := by
      have hle : WalWriterConfig.framesLength calls ≤ boundaryAfter calls - segmentHeaderSize := by
        unfold boundaryAfter
        omega
      obtain ⟨later, hsplit, -⟩ := recordsWithin_split calls
        (boundaryAfter calls - segmentHeaderSize)
      refine List.IsPrefix.eq_of_length_le ⟨later, hsplit.symm⟩ ?_
      exact (prefix_recordsWithin List.prefix_rfl hle).length_le
    have hboundary : IsRecordBoundary calls (boundaryAfter calls) := ⟨calls, List.prefix_rfl, rfl⟩
    rw [hall, List.take_of_length_le (by rw [hwhole]; exact le_rfl)]
    obtain ⟨read, hread, hend, hrecords⟩ := readAll_segment_iff hvalid.1 hvalid.2.1
      fun call hcall => (haligned call hcall).1
    have hstatus := hend.mpr ⟨hvalid.2.2, hcounts⟩
    exact ⟨read, hread, hrecords hstatus, iff_of_true hstatus hboundary⟩
  · have hkeeps := keeps_of_prefix haligned
      (List.take_prefix cut (config.segmentBytes calls))
    have hfew := recordsBefore_length_le hlt
    have hlength : ((config.segmentBytes calls).take cut).length = cut := by
      rw [List.length_take, hwhole]
      exact min_eq_left hcut
    have hboundary := isRecordBoundary_iff hcut
    rw [hlength] at hkeeps
    generalize (config.segmentBytes calls).take cut = bytes at hkeeps hlength ⊢
    generalize recordsBefore calls cut = kept at hkeeps hfew hboundary ⊢
    rw [hboundary, ← hlength]
    cases hkeeps with
    | header hfirst hshort =>
      have hinvalid : ¬ SegmentHeaderValid bytes := fun h =>
        absurd h.complete (Nat.not_le.mpr hshort)
      obtain ⟨error, hread⟩ := WalSegmentReader.readAll_of_invalid hinvalid
      refine ⟨_, hread, rfl, iff_of_false WalReadStatus.noConfusion fun heq => ?_⟩
      unfold boundaryAfter at heq
      omega
    | @records _ torn ending hfits htorn hending =>
      obtain ⟨last, hread⟩ := readAll_append hvalid hfits htorn (hcounts.mono hfew)
      refine ⟨_, hread, List.append_nil _, ?_⟩
      rw [List.length_append, WalWriterConfig.segmentBytes_length]
      rcases hending with ⟨rfl, rfl⟩ | rfl
      · exact iff_of_true rfl rfl
      · refine iff_of_false WalReadStatus.noConfusion fun heq => ?_
        have hnone : torn = [] := List.length_eq_zero_iff.mp (by unfold boundaryAfter at heq; omega)
        subst hnone
        cases htorn with
        | stop hfront => simp [frontAt_nil] at hfront

end Segments

/-! ## What a cut-off log delivers -/

section Reading

variable {α : Type} {layout : StorageLayout α} {recordType : UInt32} {file : List UInt8}
  {reader : WalSegmentReader}

/-- A replay reads the records of a log and then its end or a failure. -/
theorem readScript_eq {calls : ℕ} {read : WalSegmentReader.ReadBack}
    (hread : WalSegmentReader.readRecords file calls reader = some read) {records : List α}
    (hrecords : List.Forall₂ (ReadsAs layout recordType) read.records records) :
    let script := readScript layout recordType file calls reader
    script.records = records ∧ script.outcome records.length =
      if read.final.status = .endOfLog then .endOfLog else .failed := by
  induction calls generalizing reader read records with
  | zero => cases hread
  | succ calls ih =>
    unfold WalSegmentReader.readRecords at hread
    unfold readScript
    generalize hnext : reader.readNext file = next at hread
    obtain ⟨result, view, after⟩ := next
    cases view with
    | none =>
      obtain rfl := Option.some.inj hread
      cases hrecords
      have houtcome := replayReadNext_of_none layout recordType hnext
      generalize replayReadNext layout recordType file reader = first at houtcome ⊢
      obtain ⟨outcome, later⟩ := first
      obtain rfl : outcome = _ := houtcome
      refine ⟨?_, rfl⟩
      dsimp only
      split_ifs <;> rfl
    | some view =>
      obtain ⟨later, hlater, rfl⟩ := Option.map_eq_some_iff.mp hread
      cases hrecords with
      | @cons _ record _ rest hfirst hrest =>
        rcases replayReadNext_of_view layout recordType hnext with
          ⟨record', hreads, houtcome⟩ | ⟨hnone, -⟩
        · obtain rfl : record' = record := hreads.record.symm.trans hfirst.record
          obtain ⟨hlist, hend⟩ := ih hlater hrest
          dsimp only
          rw [houtcome]
          exact ⟨congrArg (record' :: ·) hlist, hend⟩
        · exact absurd hfirst (hnone record)

end Reading

section Logs

variable {α : Type} (layout : StorageLayout α)

/-- The number of records wholly before a cut. -/
def wholeRecords (cut : ℕ) : ℕ := (cut - segmentHeaderSize) / frameLength layout.size

/-- The cut is behind the header or behind a record. -/
def BetweenRecords (cut : ℕ) : Prop :=
  segmentHeaderSize ≤ cut ∧ frameLength layout.size ∣ cut - segmentHeaderSize

instance (cut : ℕ) : Decidable (BetweenRecords layout cut) :=
  inferInstanceAs (Decidable (_ ∧ _))

/-- What a reader returns at a cut. -/
def atCut {β : Type} (cut : ℕ) : ReadOutcome β :=
  if BetweenRecords layout cut then .endOfLog else .failed

variable {layout} {recordType : UInt32} {padding : ℕ → Padding} {records : List α}

theorem atCut_eq_endOfLog_iff {β : Type} {cut : ℕ} :
    (atCut layout cut : ReadOutcome β) = .endOfLog ↔ BetweenRecords layout cut := by
  unfold atCut
  by_cases hbetween : BetweenRecords layout cut
  · rw [if_pos hbetween]
    exact iff_of_true rfl hbetween
  · rw [if_neg hbetween]
    exact iff_of_false (fun h => nomatch h) hbetween

/-- The frames of domain records have one length. -/
theorem framesLength_storageAppends :
    WalWriterConfig.framesLength (storageAppends layout recordType padding records) =
      records.length * frameLength layout.size := by
  induction records generalizing padding with
  | nil => exact (Nat.zero_mul _).symm
  | cons record records ih =>
    have hcons : WalWriterConfig.framesLength
        (storageAppends layout recordType padding (record :: records)) =
        frameLength (layout.toBytes record (padding 0).record).length +
          WalWriterConfig.framesLength
            (storageAppends layout recordType (fun i => padding (i + 1)) records) := by
      rw [storageAppends_cons]
      rfl
    rw [hcons, ih, layout.toBytes_length, List.length_cons, Nat.succ_mul, Nat.add_comm]

/-- The domain records whose frames fit into the room. -/
theorem recordsWithin_storageAppends (room : ℕ) :
    recordsWithin room (storageAppends layout recordType padding records) =
      storageAppends layout recordType padding (records.take (room / frameLength layout.size)) := by
  induction records generalizing padding room with
  | nil => rw [List.take_nil]; rfl
  | cons record records ih =>
    have hpos : 0 < frameLength layout.size := by
      have hbounds := (frameLength_bounds layout.size).1
      unfold recordHeaderSize at hbounds
      omega
    have hlength : (storageAppend layout recordType record (padding 0)).payload.length =
        layout.size := layout.toBytes_length _ _
    rw [storageAppends_cons, recordsWithin, hlength]
    by_cases hroom : frameLength layout.size ≤ room
    · rw [if_pos hroom, ih, Nat.div_eq_sub_div hpos hroom, List.take_succ_cons,
        storageAppends_cons]
    · rw [if_neg hroom, Nat.div_eq_of_lt (by omega)]
      rfl

variable {streamId : UInt64} {sequenceOf : α → UInt64} {cut : ℕ}

/-- The length of a complete log. -/
theorem logBytes_length :
    (logBytes layout recordType streamId sequenceOf records padding).length =
      segmentHeaderSize + records.length * frameLength layout.size := by
  unfold logBytes
  rw [WalWriterConfig.segmentBytes_length, framesLength_storageAppends]

/-- There is a record boundary at a cut if the frames before it reach it. -/
theorem betweenRecords_iff
    (hcut : cut ≤ (logBytes layout recordType streamId sequenceOf records padding).length) :
    IsRecordBoundary (storageAppends layout recordType padding records) cut ↔
      BetweenRecords layout cut := by
  rw [logBytes_length] at hcut
  have hfew : (cut - segmentHeaderSize) / frameLength layout.size ≤ records.length :=
    Nat.div_le_of_le_mul (by rw [Nat.mul_comm]; omega)
  have hboundary : boundaryAfter (recordsBefore (storageAppends layout recordType padding records)
      cut) = segmentHeaderSize +
        (cut - segmentHeaderSize) / frameLength layout.size * frameLength layout.size := by
    unfold recordsBefore boundaryAfter
    rw [recordsWithin_storageAppends, framesLength_storageAppends, List.length_take,
      min_eq_left hfew]
  rw [isRecordBoundary_iff (by rw [boundaryAfter, framesLength_storageAppends]; exact hcut),
    hboundary]
  constructor
  · intro heq
    exact ⟨by omega, Dvd.intro_left ((cut - segmentHeaderSize) / frameLength layout.size)
      (by omega)⟩
  · rintro ⟨hheader, hdvd⟩
    rw [Nat.div_mul_cancel hdvd]
    omega

/-- A log that was cut off delivers the records wholly before the cut, and then its end if the cut
is between records, and a failure otherwise. -/
theorem logScript_cut (hsize : frameLength layout.size < 2 ^ 32) (haligned : 8 ∣ layout.size)
    (hstreamId : streamId ≠ 0) (hfirst : (logConfig streamId sequenceOf records).firstSequence ≠ 0)
    (hcounts : WalSegmentReader.CountsOn (logConfig streamId sequenceOf records).segmentHeader
      (logConfig streamId sequenceOf records).firstSequence (records.length - 1))
    (hcut : cut ≤ (logBytes layout recordType streamId sequenceOf records padding).length) :
    let script := logScript layout recordType
      (.file ((logBytes layout recordType streamId sequenceOf records padding).take cut))
    script.records = records.take (wholeRecords layout cut) ∧
      script.outcome (records.take (wholeRecords layout cut)).length = atCut layout cut := by
  have hvalid : (logConfig streamId sequenceOf records).Valid :=
    ⟨hstreamId, (by decide : epoch ≠ 0), hfirst⟩
  have hcalls : ∀ call ∈ storageAppends layout recordType padding records, call.Aligned := by
    intro call hcall
    refine ⟨storageAppends_fits hsize call hcall, ?_⟩
    obtain ⟨i, hi, rfl⟩ := List.mem_mapIdx.mp hcall
    exact (layout.toBytes_length _ _).symm ▸ haligned
  rw [← @storageAppends_length α layout recordType padding records] at hcounts
  have hbound := hcut
  unfold logBytes at hcut
  rw [WalWriterConfig.segmentBytes_length] at hcut
  obtain ⟨read, hread, hrecords, hend⟩ := readAll_cut hvalid hcalls hcounts hcut
  have hstores : List.Forall₂ (Stores layout recordType) _
      (records.take (wholeRecords layout cut)) :=
    records_store (logConfig streamId sequenceOf records)
      (logConfig streamId sequenceOf records).firstSequence padding _
  unfold recordsBefore at hrecords
  rw [recordsWithin_storageAppends] at hrecords
  change read.records = _ at hrecords
  unfold wholeRecords at hstores ⊢
  rw [← hrecords] at hstores
  obtain ⟨hlist, houtcome⟩ := readScript_eq hread (hstores.imp fun _ _ h => readsAs_of_stores h)
  refine ⟨hlist, houtcome.trans ?_⟩
  unfold atCut
  exact if_congr (hend.trans (betweenRecords_iff hbound)) rfl rfl

end Logs

/-! ## The replay -/

section Runs

variable {commands : List OrderCommandRecordV1} {padding eventPadding : ℕ → Padding}
  {commandCut eventCut : ℕ}

/-- The commands that are left. -/
def commandsLeft (commands : List OrderCommandRecordV1) (cut : ℕ) : List OrderCommandRecordV1 :=
  commands.take (wholeRecords OrderCommand.storage cut)

/-- The events that are left. -/
def eventsLeft (commands : List OrderCommandRecordV1) (cut : ℕ) : List ExecutionEventRecordV1 :=
  (runEngine commands).take (wholeRecords ExecutionEvent.storage cut)

/-- The answer of a replay of the two logs of a run, cut off at these places. -/
structure TornAnswer (commands : List OrderCommandRecordV1) (commandCut eventCut : ℕ)
    (result : ReplayResult) : Prop where
  /-- The first event of the commands left that is not left is reported. -/
  missing : (eventsLeft commands eventCut).length <
      (runEngine (commandsLeft commands commandCut)).length →
    ∃ before command after index,
      commandsLeft commands commandCut = before ++ command :: after ∧
      let run := (InstrumentEngine.create firstSequence).applyAll before
      index < (run.2.apply command).1.length ∧
      run.1.length + index = (eventsLeft commands eventCut).length ∧
      result = failedResult
        (eventFailure run.2 command index (atCut ExecutionEvent.storage eventCut))
        (.ofNat before.length) (.ofNat (eventsLeft commands eventCut).length)
  /-- If there is none, the ends of both logs are reported. -/
  found : (runEngine (commandsLeft commands commandCut)).length ≤
      (eventsLeft commands eventCut).length →
    let run := (InstrumentEngine.create firstSequence).applyAll (commandsLeft commands commandCut)
    result = endResult run.2 (.ofNat (commandsLeft commands commandCut).length)
      (.ofNat run.1.length) (atCut OrderCommand.storage commandCut)
      ((eventsLeft commands eventCut)[run.1.length]?.elim (atCut ExecutionEvent.storage eventCut)
        .recordRead)

/-- The events of the first commands are the first events. -/
theorem runEngine_take_isPrefix (count : ℕ) :
    runEngine (commands.take count) <+: runEngine commands := by
  have hsplit := engineMachine.run_append (InstrumentEngine.create firstSequence)
    (commands.take count) (commands.drop count)
  rw [List.take_append_drop] at hsplit
  exact ⟨_, (congrArg Prod.fst hsplit).symm⟩

/-- What the cut-off command log delivers. -/
theorem commandScript_cut (h : Replayable commands)
    (hcut : commandCut ≤ (commandBytes commands padding).length) :
    let script := logScript OrderCommand.storage orderCommandRecordType
      (.file ((commandBytes commands padding).take commandCut))
    script.records = commandsLeft commands commandCut ∧
      script.outcome (commandsLeft commands commandCut).length =
        atCut OrderCommand.storage commandCut := by
  have hstreamId : commandStreamId ≠ 0 := by decide
  refine logScript_cut (by decide) (by decide) hstreamId ?_ ?_ hcut
  · cases commands with
    | nil => exact (by decide : firstSequence ≠ 0)
    | cons front rest => exact (h.first front rfl).1
  · cases commands with
    | nil => exact .inl rfl
    | cons front rest =>
      obtain ⟨hpos, hbound⟩ := h.first front rfl
      have hcounts := @WalSegmentReader.countsOn_first_iff
        (logConfig commandStreamId OrderCommandRecordV1.commandSequence
          (front :: rest)).segmentHeader hpos rest.length
      refine hcounts.mpr (hbound.imp_right fun hle => ?_)
      change front.commandSequence.toNat + rest.length ≤ _
      rw [List.length_cons] at hle
      omega

/-- What the cut-off event log delivers. -/
theorem eventScript_cut
    (hcut : eventCut ≤ (eventBytes (runEngine commands) eventPadding).length) :
    let script := logScript ExecutionEvent.storage executionEventRecordType
      (.file ((eventBytes (runEngine commands) eventPadding).take eventCut))
    script.records = eventsLeft commands eventCut ∧
      script.outcome (eventsLeft commands eventCut).length =
        atCut ExecutionEvent.storage eventCut := by
  have hstreamId : eventStreamId ≠ 0 := by decide
  have hfirst := eventLog_firstSequence commands
  refine logScript_cut (by decide) (by decide) hstreamId ?_ (.inl hfirst) hcut
  rw [hfirst]
  decide

/-- What a replay makes of what is left. -/
theorem tornAnswer (h : Replayable commands)
    (hcommandCut : commandCut ≤ (commandBytes commands padding).length)
    (heventCut : eventCut ≤ (eventBytes (runEngine commands) eventPadding).length) :
    TornAnswer commands commandCut eventCut
      (replayResult (.file ((commandBytes commands padding).take commandCut))
        (.file ((eventBytes (runEngine commands) eventPadding).take eventCut))) := by
  obtain ⟨hcommands, hcommandEnd⟩ := commandScript_cut h hcommandCut
  obtain ⟨hevents, heventEnd⟩ := eventScript_cut heventCut
  unfold replayResult
  generalize logScript OrderCommand.storage orderCommandRecordType
    (.file ((commandBytes commands padding).take commandCut)) = commandLog
    at hcommands hcommandEnd ⊢
  generalize logScript ExecutionEvent.storage executionEventRecordType
    (.file ((eventBytes (runEngine commands) eventPadding).take eventCut)) = eventLog
    at hevents heventEnd ⊢
  have hdiagnosed : Diagnosed commandLog eventLog (countingOn none commandLog.records)
      (InstrumentEngine.create firstSequence) 0 0
      (ReplayRunner.replay commandLog eventLog (InstrumentEngine.create firstSequence)) :=
    replayLoop_diagnosed (InstrumentEngine.reachable_create firstSequence) none
  have hleft : ConsecutiveAfter none (commandsLeft commands commandCut) := by
    have htake := h.consecutive.take (wholeRecords OrderCommand.storage commandCut)
    rwa [← List.map_take] at htake
  rw [hcommands, countingOn_eq hleft] at hdiagnosed
  have hwithin := hdiagnosed.within
  have hbehind := hdiagnosed.behind
  rw [hevents] at hwithin hbehind
  constructor
  · intro hlt
    have hfirst : eventsLeft commands eventCut <+: runEngine (commandsLeft commands commandCut) :=
      List.prefix_of_prefix_length_le (List.take_prefix _ _) (runEngine_take_isPrefix _) hlt.le
    have hplace := commonPrefix_eq_left hfirst
    unfold runEngine at hplace hlt
    rw [hplace] at hwithin
    obtain ⟨before, command, after, index, hsplit, hindex, hsum, hresult⟩ := hwithin hlt
    refine ⟨before, command, after, index, hsplit, hindex, hsum, ?_⟩
    rw [hresult, hsum, heventEnd, UInt64.zero_add, UInt64.zero_add]
  · intro hle run
    have hfirst : runEngine (commandsLeft commands commandCut) <+: eventsLeft commands eventCut :=
      List.prefix_of_prefix_length_le (runEngine_take_isPrefix _) (List.take_prefix _ _) hle
    have hplace := commonPrefix_eq_right hfirst
    unfold runEngine at hplace hle
    rw [hplace] at hbehind
    have houtcome := ReadScript.outcome_eq (hevents.symm ▸ hle)
    rw [hevents, heventEnd] at houtcome
    rw [hbehind rfl, hcommandEnd, houtcome, UInt64.zero_add, UInt64.zero_add]

/-- The replay is ok if both logs end between records and with the same command. -/
theorem TornAnswer.ok_iff {result : ReplayResult}
    (h : TornAnswer commands commandCut eventCut result) :
    result.ok = true ↔ BetweenRecords OrderCommand.storage commandCut ∧
      BetweenRecords ExecutionEvent.storage eventCut ∧
      eventsLeft commands eventCut = runEngine (commandsLeft commands commandCut) := by
  rcases Nat.lt_or_ge (eventsLeft commands eventCut).length
    (runEngine (commandsLeft commands commandCut)).length with hlt | hle
  · obtain ⟨before, command, after, index, -, -, -, rfl⟩ := h.missing hlt
    refine iff_of_false Bool.false_ne_true fun hend => ?_
    exact absurd (congrArg List.length hend.2.2) hlt.ne
  · rw [h.found hle, endResult_ok_iff, atCut_eq_endOfLog_iff]
    refine and_congr_right fun _ => ?_
    have hfirst : runEngine (commandsLeft commands commandCut) <+: eventsLeft commands eventCut :=
      List.prefix_of_prefix_length_le (runEngine_take_isPrefix _) (List.take_prefix _ _) hle
    rcases hle.eq_or_lt with heq | hlt
    · have hall := hfirst.eq_of_length heq
      have hnone : (eventsLeft commands eventCut)[(runEngine (commandsLeft commands
          commandCut)).length]? = none := List.getElem?_eq_none heq.ge
      unfold runEngine at hnone
      rw [hnone, Option.elim_none, atCut_eq_endOfLog_iff]
      exact (and_iff_left hall.symm).symm
    · have hsome := List.getElem?_eq_getElem hlt
      unfold runEngine at hsome
      rw [hsome]
      refine iff_of_false (fun hend => nomatch hend) fun hend => ?_
      exact absurd (congrArg List.length hend.2) hlt.ne'

/-- What a replay makes of two logs of a run that were cut off anywhere. -/
theorem torn_logs_replayed (h : Replayable commands)
    (hcommandCut : commandCut ≤ (commandBytes commands padding).length)
    (heventCut : eventCut ≤ (eventBytes (runEngine commands) eventPadding).length) :
    let result := replayResult (.file ((commandBytes commands padding).take commandCut))
      (.file ((eventBytes (runEngine commands) eventPadding).take eventCut))
    (result.ok = true ↔ BetweenRecords OrderCommand.storage commandCut ∧
      BetweenRecords ExecutionEvent.storage eventCut ∧
      eventsLeft commands eventCut = runEngine (commandsLeft commands commandCut)) ∧
      TornAnswer commands commandCut eventCut result :=
  have hanswer := tornAnswer h hcommandCut heventCut
  ⟨hanswer.ok_iff, hanswer⟩

/-- Of two orders that trade, the first command and its events are left. -/
theorem torn_logs_replayed_first :
    let commands : List OrderCommandRecordV1 :=
      [{ commandSequence := 1, orderId := 1, priceTicks := 100, quantityLots := 5
         instrumentId := 7, commandType := 1, side := 2, timeInForce := 1 },
        { commandSequence := 2, orderId := 2, priceTicks := 101, quantityLots := 2
          instrumentId := 7, commandType := 1, side := 1, timeInForce := 1 }]
    (replayResult (.file ((commandBytes commands fun _ => {}).take 176))
      (.file ((eventBytes (runEngine commands) fun _ => {}).take 344))).ok = true := by
  intro commands
  have hcommandCut : 176 ≤ (commandBytes commands fun _ => {}).length := by
    unfold commandBytes
    rw [logBytes_length]
    decide
  have heventCut : 344 ≤ (eventBytes (runEngine commands) fun _ => {}).length := by
    unfold eventBytes
    rw [logBytes_length]
    decide +kernel
  refine (torn_logs_replayed (by decide) hcommandCut heventCut).1.mpr ⟨by decide, by decide, ?_⟩
  decide +kernel

/-! ## The dumps -/

/-- What the dumps make of an event log of a run that was cut off anywhere. The book is what
`rebuild_book` makes of the moment behind the last event that is left, and shows its quantities
if none of them exceeds the largest `int64`. -/
theorem torn_log_dumped {Place : Type} (surroundings : Surroundings Place) {disk : Disk Place}
    {eventWal : List UInt8}
    (heventCut : eventCut ≤ (eventBytes (runEngine commands) eventPadding).length)
    (hdisk : disk (surroundings.place eventWal) =
      some ((eventBytes (runEngine commands) eventPadding).take eventCut)) :
    ∃ es m, es <+: (InstrumentEngine.create firstSequence).emissionsAll commands ∧
      EmissionSteps (OrderBook.create firstSequence).moment es m ∧
      es.map Emission.event = eventsLeft commands eventCut ∧
      let left := eventsLeft commands eventCut
      let ending := atCut ExecutionEvent.storage eventCut
      dumpEventsCommand surroundings disk [eventWal] =
        { exitCode := (dumpEnd ending).1
          out := left.flatMap printEvent
          err := (dumpEnd ending).2
          disk := disk } ∧
      dumpTradesCommand surroundings disk [eventWal] =
        shownUpTo disk left ending ((tradeTape left).flatMap printTrade) ∧
      dumpBookCommand surroundings disk [eventWal] =
        shownUpTo disk left ending (printBook m.rebuiltBook (.ofNat left.length)) ∧
      (QuantitiesFit m.activeOrders → m.rebuiltBook.Shows m.activeOrders) := by
  obtain ⟨hrecords, hending⟩ := eventScript_cut heventCut
  have hentry : disk.entry (surroundings.place eventWal) =
      .file ((eventBytes (runEngine commands) eventPadding).take eventCut) := by
    unfold Disk.entry
    rw [hdisk]
  rw [← hentry] at hrecords hending
  have hsteps := InstrumentEngine.steps_applyAll firstSequence commands
  have hemissions : ((InstrumentEngine.create firstSequence).emissionsAll commands).map
      Emission.event = runEngine commands := InstrumentEngine.emissionsAll_events _ commands
  have hleft : (((InstrumentEngine.create firstSequence).emissionsAll commands).take
      (wholeRecords ExecutionEvent.storage eventCut)).map Emission.event =
        eventsLeft commands eventCut := by
    rw [List.map_take, hemissions]
    rfl
  rw [← List.take_append_drop (wholeRecords ExecutionEvent.storage eventCut)
    ((InstrumentEngine.create firstSequence).emissionsAll commands)] at hsteps
  obtain ⟨m, hbefore, -⟩ := hsteps.of_append
  refine ⟨_, m, List.take_prefix _ _, hbefore, hleft, ?_⟩
  generalize ((InstrumentEngine.create firstSequence).emissionsAll commands).take
    (wholeRecords ExecutionEvent.storage eventCut) = es at hbefore hleft ⊢
  have hcount : es.length = (eventsLeft commands eventCut).length := by
    rw [← hleft, List.length_map]
  have hdumped : dumpEventsCommand surroundings disk [eventWal] = _ :=
    dumpEventsCommand_eq hrecords
  have htrades : dumpTradesCommand surroundings disk [eventWal] = _ :=
    dumpTradesCommand_eq hbefore (hrecords.trans hleft.symm)
  have hbook : dumpBookCommand surroundings disk [eventWal] = _ :=
    dumpBookCommand_eq hbefore (hrecords.trans hleft.symm)
  unfold eventScript at hdumped htrades hbook
  rw [hending] at hdumped
  rw [hcount, hending, hleft] at htrades hbook
  exact ⟨hdumped, htrades, hbook, (hbefore.fed surroundings.orders).1.rebuiltBook_shows⟩

/-- Of two orders that trade, all events up to the trade are left. -/
theorem torn_log_dumped_trade :
    let commands : List OrderCommandRecordV1 :=
      [{ commandSequence := 1, orderId := 1, priceTicks := 100, quantityLots := 5
         instrumentId := 7, commandType := 1, side := 2, timeInForce := 1 },
        { commandSequence := 2, orderId := 2, priceTicks := 101, quantityLots := 2
          instrumentId := 7, commandType := 1, side := 1, timeInForce := 1 }]
    let disk : Disk Unit := fun _ => some ((eventBytes (runEngine commands) fun _ => {}).take 648)
    (dumpTradesCommand { place := fun _ => () } disk [ascii "e"]).out =
      ascii "trade=1 instrument=7 incoming=2 resting=1 side=BUY price=100 qty=2\n" := by
  intro commands disk
  have heventCut : 648 ≤ (eventBytes (runEngine commands) fun _ => {}).length := by
    unfold eventBytes
    rw [logBytes_length]
    decide +kernel
  obtain ⟨es, m, -, -, -, -, htrades, -, -⟩ := @torn_log_dumped commands (fun _ => {}) 648 Unit
    { place := fun _ => () } disk (ascii "e") heventCut rfl
  rw [htrades]
  decide +kernel

end Runs

end App
