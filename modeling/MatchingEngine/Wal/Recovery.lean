import MatchingEngine.Wal.CommitProtocol
import MatchingEngine.Wal.ReaderFrames
import MatchingEngine.Wal.ScannerFrames

/-!
# Recovery

`scan_wal_segment` and `recover_wal_segment` of `wal.cpp`. What recovery leaves behind is
the segment up to the last complete record, or the file as it was, so a second recovery
finds nothing to do and no reader loses a record.
-/

namespace Wal

open Framing InputStream

/-- `WalRecoveryResult`. -/
structure WalRecoveryResult where
  ok : Bool := false
  error : WalError := .none
  lastValidPosition : WalPosition := {}
  lastValidOffset : ℕ := 0
  recoveredIncompleteTail : Bool := false
  deriving DecidableEq

/-- `scan_wal_segment`. -/
def scanWalSegment (entry : FileEntry) : WalRecoveryResult :=
  let scanResult := WalSegmentScanner.scan entry
  { ok := scanResult.ok
    error := scanResult.error
    lastValidPosition := scanResult.lastValidPosition
    lastValidOffset := scanResult.lastValidOffset
    recoveredIncompleteTail := false }

/-- `recover_wal_segment`, with what it leaves at the path. -/
def recoverWalSegment (entry : FileEntry) : WalRecoveryResult × FileEntry :=
  let scanResult := WalSegmentScanner.scan entry
  if scanResult.ok then
    ({ ok := true
       error := .none
       lastValidPosition := scanResult.lastValidPosition
       lastValidOffset := scanResult.lastValidOffset
       recoveredIncompleteTail := false }, entry)
  else if scanResult.error = .incompleteTrailingRecord then
    ({ ok := true
       error := .none
       lastValidPosition := scanResult.lastValidPosition
       lastValidOffset := scanResult.lastValidOffset
       recoveredIncompleteTail := true }, entry.resize scanResult.lastValidOffset)
  else
    ({ ok := false
       error := scanResult.error
       lastValidPosition := scanResult.lastValidPosition
       lastValidOffset := scanResult.lastValidOffset
       recoveredIncompleteTail := false }, entry)

/-- What a scan finds, as far as recovery is concerned. -/
inductive ScanCase (file : List UInt8) : WalSegmentScanResult → Prop where
  /-- The records reach to the end of the file. -/
  | complete {result : WalSegmentScanResult} (hok : result.ok = true)
    (herror : result.error = .none) : ScanCase file result
  /-- The records end inside the file, at a record that is cut off. -/
  | torn {result : WalSegmentScanResult} {views : List WalRecordView} {size : ℕ}
    (hok : result.ok = false) (herror : result.error = .incompleteTrailingRecord)
    (hvalid : SegmentHeaderValid file)
    (hframes : Frames (segmentHeaderOf file) (segmentHeaderOf file).firstSequence
      (file.drop segmentHeaderSize) views size (some .incompleteTrailingRecord))
    (hinside : segmentHeaderSize + size ≤ file.length)
    (hoffset : result.lastValidOffset = segmentHeaderSize + size)
    (hposition : result.lastValidPosition = lastOf {} views) : ScanCase file result
  /-- The file is wrong in another way. -/
  | wrong {result : WalSegmentScanResult} (hok : result.ok = false)
    (hnone : result.error ≠ .none) (herror : result.error ≠ .incompleteTrailingRecord) :
    ScanCase file result

variable {file : List UInt8}

/-- Every scan is of one of these kinds. -/
theorem scan_case (file : List UInt8) : ScanCase file (WalSegmentScanner.scan (.file file)) := by
  by_cases hvalid : SegmentHeaderValid file
  · obtain ⟨views, size, ending, hframes⟩ := Parses.exists_of_progress
      (frontAt_progress (segmentHeaderOf file))
      (segmentHeaderOf file).firstSequence (file.drop segmentHeaderSize)
    rw [WalSegmentScanner.scan_of_frames hvalid hframes]
    cases ending with
    | none => exact .complete rfl rfl
    | some error =>
      by_cases htorn : error = .incompleteTrailingRecord
      · subst htorn
        have hinside := hframes.size_le (frontAt_nil _)
        have hcomplete := hvalid.complete
        rw [List.length_drop] at hinside
        have hle : segmentHeaderSize + size ≤ file.length := by omega
        rw [WalSegmentScanner.offsetAt, if_pos hle]
        exact .torn rfl rfl hvalid hframes hle rfl rfl
      · rw [WalSegmentScanner.endAt_of_ne htorn]
        exact .wrong rfl WalError.noConfusion WalError.noConfusion
  · obtain ⟨error, herror, hscan⟩ := WalSegmentScanner.scan_of_invalid hvalid
    rw [hscan]
    rcases herror with rfl | rfl
    · exact .wrong rfl WalError.noConfusion WalError.noConfusion
    · exact .wrong rfl WalError.noConfusion WalError.noConfusion

/-- The scan of a segment that was cut off behind its last complete record. -/
theorem scan_take {views : List WalRecordView} {size : ℕ} {ending : Option WalError}
    (hvalid : SegmentHeaderValid file)
    (hframes : Frames (segmentHeaderOf file) (segmentHeaderOf file).firstSequence
      (file.drop segmentHeaderSize) views size ending)
    (hinside : segmentHeaderSize + size ≤ file.length) :
    WalSegmentScanner.scan (.file (file.take (segmentHeaderSize + size))) =
      { ok := true
        lastValidPosition := lastOf {} views
        lastValidOffset := segmentHeaderSize + size } := by
  have hheader : segmentHeaderOf (file.take (segmentHeaderSize + size)) = segmentHeaderOf file :=
    segmentHeaderOf_take (Nat.le_add_right _ _)
  have hlength : (file.take (segmentHeaderSize + size)).length = segmentHeaderSize + size := by
    rw [List.length_take, Nat.min_eq_left hinside]
  have hvalid' := hvalid.take (Nat.le_add_right segmentHeaderSize size)
  have hcut := hframes.truncate (frontAt_nil _) (frontAt_take _)
  have hdrop : (file.take (segmentHeaderSize + size)).drop segmentHeaderSize =
      (file.drop segmentHeaderSize).take size := by
    rw [List.drop_take, Nat.add_sub_cancel_left]
  rw [← hdrop, ← hheader] at hcut
  rw [WalSegmentScanner.scan_of_frames hvalid' hcut, WalSegmentScanner.offsetAt,
    if_pos (by rw [hlength])]
  rfl

/-! ## No record is lost -/

/-- Two readers of a file and of its part up to the last complete record read the same
records. They may expect other numbers than the scanner, once the numbers wrap. -/
theorem readRecords_take {segment : WalSegmentHeader} {expected : UInt64} {input : List UInt8}
    {views : List WalRecordView} {size offset : ℕ} {file' : List UInt8}
    {reader reader' : WalSegmentReader} {calls calls' : ℕ}
    {read read' : WalSegmentReader.ReadBack}
    (hframes : Frames segment expected input views size (some .incompleteTrailingRecord))
    (hopen : reader.openResult.status = .recordRead)
    (hopen' : reader'.openResult.status = .recordRead)
    (hsegment : reader.segmentHeader = segment) (hsegment' : reader'.segmentHeader = segment)
    (hlast : reader'.lastPosition = reader.lastPosition)
    (hinput : file.drop offset = input) (hinput' : file'.drop offset = input.take size)
    (hstream : Positioned file offset reader.file)
    (hstream' : Positioned file' offset reader'.file)
    (hread : WalSegmentReader.readRecords file calls reader = some read)
    (hread' : WalSegmentReader.readRecords file' calls' reader' = some read') :
    read'.records = read.records := by
  generalize hending : some WalError.incompleteTrailingRecord = ending at hframes
  have hexpected : reader'.expectedSequence = reader.expectedSequence := by
    unfold WalSegmentReader.expectedSequence
    rw [hlast, hsegment, hsegment']
  induction hframes generalizing offset reader reader' calls calls' read read' with
  | done => cases hending
  | @stop expected input reason hfront =>
    cases hending
    obtain ⟨error, hstop⟩ := frontAt_incomplete hfront reader.expectedSequence
    rw [WalSegmentReader.readRecords_of_stop hopen hstream
        (by rw [hsegment, hinput, hstop]) hread,
      WalSegmentReader.readRecords_of_done hopen' hstream'
        (by rw [hinput', List.take_zero, frontAt_nil]) hread']
  | @item expected next input view size views rest ending hfront hrest ih =>
    have htake := frontAt_take segment expected input view next size (size + rest) hfront
      (Nat.le_add_right _ _)
    by_cases hsame : reader.expectedSequence = expected
    · obtain ⟨stream, calls₁, rest₁, hpositioned, hrest₁, rfl⟩ :=
        WalSegmentReader.readRecords_of_item hopen hstream
          (by rw [hsegment, hinput, hsame, hfront]) hread
      obtain ⟨stream', calls₂, rest₂, hpositioned', hrest₂, rfl⟩ :=
        WalSegmentReader.readRecords_of_item hopen' hstream'
          (by rw [hsegment', hinput', hexpected, hsame, htake]) hread'
      have hrecords := @ih (offset + size)
        { reader with file := stream, lastPosition := view.header.position }
        { reader' with file := stream', lastPosition := view.header.position }
        calls₁ calls₂ rest₁ rest₂ hopen hopen' hsegment hsegment' rfl
        (by rw [← List.drop_drop, hinput])
        (by rw [← List.drop_drop, hinput', List.drop_take, Nat.add_sub_cancel_left])
        hpositioned hpositioned' hrest₁ hrest₂ hending
        (by unfold WalSegmentReader.expectedSequence; rw [hsegment, hsegment'])
      rw [hrecords]
    · rw [WalSegmentReader.readRecords_of_stop hopen hstream
          (by rw [hsegment, hinput, frontAt_other hfront hsame]) hread,
        WalSegmentReader.readRecords_of_stop hopen' hstream'
          (by rw [hsegment', hinput', hexpected, frontAt_other htake hsame]) hread']

/-- A fresh reader reads the same records from the part up to the last complete one. -/
theorem readAll_take {views : List WalRecordView} {size : ℕ} (hvalid : SegmentHeaderValid file)
    (hframes : Frames (segmentHeaderOf file) (segmentHeaderOf file).firstSequence
      (file.drop segmentHeaderSize) views size (some .incompleteTrailingRecord))
    {read read' : WalSegmentReader.ReadBack}
    (hread : WalSegmentReader.readAll (.file file) = some read)
    (hread' : WalSegmentReader.readAll (.file (file.take (segmentHeaderSize + size))) =
      some read') : read'.records = read.records := by
  have hvalid' := hvalid.take (Nat.le_add_right segmentHeaderSize size)
  unfold WalSegmentReader.readAll at hread hread'
  rw [WalSegmentReader.create_of_valid hvalid] at hread
  rw [WalSegmentReader.create_of_valid hvalid',
    segmentHeaderOf_take (Nat.le_add_right _ _)] at hread'
  have hdrop : (file.take (segmentHeaderSize + size)).drop segmentHeaderSize =
      (file.drop segmentHeaderSize).take size := by
    rw [List.drop_take, Nat.add_sub_cancel_left]
  refine readRecords_take hframes rfl rfl rfl rfl rfl rfl hdrop ?_ ?_ hread hread'
  · exact .inl ⟨hvalid.complete, _, rfl⟩
  · exact .inl ⟨hvalid'.complete, _, rfl⟩

/-! ## Recovery and writers -/

/-- What recovery does, for each kind of scan. -/
theorem recover_case (file : List UInt8) :
    ((scanWalSegment (.file file)).ok = true ∧
        recoverWalSegment (.file file) = (scanWalSegment (.file file), .file file)) ∨
      (∃ views size, SegmentHeaderValid file ∧
        Frames (segmentHeaderOf file) (segmentHeaderOf file).firstSequence
          (file.drop segmentHeaderSize) views size (some .incompleteTrailingRecord) ∧
        segmentHeaderSize + size ≤ file.length ∧
        recoverWalSegment (.file file) =
          ({ ok := true
             lastValidPosition := lastOf {} views
             lastValidOffset := segmentHeaderSize + size
             recoveredIncompleteTail := true },
            .file (file.take (segmentHeaderSize + size)))) ∨
      (recoverWalSegment (.file file)).1.ok = false ∧
        (recoverWalSegment (.file file)).2 = .file file := by
  have hcase := scan_case file
  unfold recoverWalSegment scanWalSegment
  generalize WalSegmentScanner.scan (.file file) = result at hcase ⊢
  cases hcase with
  | complete hok herror =>
    dsimp only
    rw [if_pos hok, hok, herror]
    exact .inl ⟨rfl, rfl⟩
  | @torn views size hok herror hvalid hframes hinside hoffset hposition =>
    dsimp only
    rw [if_neg (by rw [hok]; exact Bool.false_ne_true), if_pos herror, hoffset, hposition]
    refine .inr (.inl ⟨views, size, hvalid, hframes, hinside, ?_⟩)
    rw [FileEntry.resize, List.takeD_eq_take _ hinside]
  | wrong hok hnone herror =>
    dsimp only
    rw [if_neg (by rw [hok]; exact Bool.false_ne_true), if_neg herror]
    exact .inr (.inr ⟨rfl, rfl⟩)

/-- Recovery cuts the file off if and only if the scan finds a record that is cut off. -/
theorem recover_entry (file : List UInt8) :
    (recoverWalSegment (.file file)).2 =
      if (WalSegmentScanner.scan (.file file)).error = .incompleteTrailingRecord then
        (FileEntry.file file).resize (WalSegmentScanner.scan (.file file)).lastValidOffset
      else .file file := by
  have hcase := scan_case file
  unfold recoverWalSegment
  generalize WalSegmentScanner.scan (.file file) = result at hcase ⊢
  cases hcase with
  | complete hok herror =>
    dsimp only
    rw [if_pos hok, if_neg (by rw [herror]; exact WalError.noConfusion)]
  | torn hok herror =>
    dsimp only
    rw [if_neg (by rw [hok]; exact Bool.false_ne_true), if_pos herror, if_pos herror]
  | wrong hok hnone herror =>
    dsimp only
    rw [if_neg (by rw [hok]; exact Bool.false_ne_true), if_neg herror, if_neg herror]

/-- Recovery leaves a file. -/
theorem exists_recovered (file : List UInt8) :
    ∃ file', (recoverWalSegment (.file file)).2 = .file file' := by
  rw [recover_entry]
  split
  · exact ⟨_, rfl⟩
  · exact ⟨_, rfl⟩

namespace WalSegmentWriter

/-- Preparing an existing segment recovers it or fails and leaves it. -/
theorem prepareExistingSegment_recovers {writer : WalSegmentWriter}
    (hentry : writer.file.entry = .file file) (firstSequence : UInt64) :
    ((writer.prepareExistingSegment firstSequence []).1 = .none ∧
        (writer.prepareExistingSegment firstSequence []).2.file =
          { writer.file with entry := (recoverWalSegment (.file file)).2 }) ∨
      (writer.prepareExistingSegment firstSequence []).1 ≠ .none ∧
        (writer.prepareExistingSegment firstSequence []).2 = writer := by
  rw [recover_entry]
  unfold prepareExistingSegment
  rw [hentry]
  dsimp only
  split
  next hheader => exact .inr ⟨hheader, rfl⟩
  split
  · exact .inr ⟨WalError.noConfusion, rfl⟩
  split
  next hwrong => exact .inr ⟨scan_sound _ _ hwrong.1, rfl⟩
  · exact .inl ⟨rfl, rfl⟩

/-- Opening an existing file recovers it or fails and leaves it. -/
theorem create_recovers (config : WalWriterConfig) (outcomes : List SinkOutcome)
    (hne : file ≠ []) :
    let writer := create config { entry := .file file, outcomes := outcomes }
    (writer.writerError = .none ∧ writer.file.entry = (recoverWalSegment (.file file)).2 ∧
        writer.file.buffer = []) ∨
      writer.writerError ≠ .none ∧ writer.file.entry = .file file := by
  intro writer
  have hprepared := @prepareExistingSegment_recovers file
    { file := { entry := .file file, outcomes := outcomes }, streamId := config.streamId,
      epoch := config.epoch, nextSequence := config.firstSequence } rfl config.firstSequence
  have hbytes : ¬ (FileEntry.file file).bytes?.getD [] = [] := hne
  have hwriter : writer = create config { entry := .file file, outcomes := outcomes } := rfl
  unfold create at hwriter
  rw [if_neg FileEntry.noConfusion] at hwriter
  simp only [hbytes, if_false] at hwriter
  generalize prepareExistingSegment config.firstSequence [] _ = prepared at hprepared hwriter
  rcases hprepared with ⟨hnone, hfile⟩ | ⟨herror, hsame⟩
  · obtain ⟨file', hrecover⟩ := exists_recovered file
    rw [hrecover] at hfile ⊢
    have hopened := OutputStream.openAppend_of_file
      (s := { entry := .file file', outcomes := outcomes }) rfl
    rw [if_neg (not_not.mpr hnone), hfile] at hwriter
    rw [hwriter]
    exact .inl ⟨hnone, hopened⟩
  · rw [if_pos herror, hsame] at hwriter
    rw [hwriter]
    exact .inr ⟨herror, rfl⟩

end WalSegmentWriter

/-- What recovery leaves of a file: the file itself or the part of it before a record that
is cut off. -/
structure Recovered (file file' : List UInt8) : Prop where
  /-- Nothing is added. -/
  cut : file' <+: file
  /-- Recovery fails closed. -/
  refused : (recoverWalSegment (.file file)).1.ok = false → file' = file
  /-- The file that is left is in order, and recovering it again does nothing. -/
  settled : (recoverWalSegment (.file file)).1.ok = true →
    (scanWalSegment (.file file')).ok = true ∧
      (scanWalSegment (.file file')).lastValidPosition =
        (recoverWalSegment (.file file)).1.lastValidPosition ∧
      (recoverWalSegment (.file file')).2 = .file file' ∧
      (recoverWalSegment (.file file')).1.recoveredIncompleteTail = false
  /-- No record is lost. -/
  records : ∃ read read', WalSegmentReader.readAll (.file file) = some read ∧
    WalSegmentReader.readAll (.file file') = some read' ∧ read'.records = read.records

/-- Recovering a file whose scan is ok does nothing. -/
theorem recover_of_ok (hok : (scanWalSegment (.file file)).ok = true) :
    (recoverWalSegment (.file file)).2 = .file file ∧
      (recoverWalSegment (.file file)).1.recoveredIncompleteTail = false := by
  have hscan : (WalSegmentScanner.scan (.file file)).ok = true := hok
  unfold recoverWalSegment
  dsimp only
  rw [if_pos hscan]
  exact ⟨rfl, rfl⟩

theorem recovered (file : List UInt8) :
    ∃ file', (recoverWalSegment (.file file)).2 = .file file' ∧ Recovered file file' := by
  obtain ⟨read, hread⟩ := WalSegmentReader.exists_readAll file
  rcases recover_case file with
    ⟨hok, hrecover⟩ | ⟨views, size, hvalid, hframes, hinside, hrecover⟩ | ⟨hfailed, hleft⟩
  · have hagain := recover_of_ok hok
    refine ⟨file, hagain.1, List.prefix_rfl, fun _ => rfl, fun _ => ?_, read, read, hread, hread,
      rfl⟩
    exact ⟨hok, by rw [hrecover], hagain⟩
  · have hscan := scan_take hvalid hframes hinside
    have hok : (scanWalSegment (.file (file.take (segmentHeaderSize + size)))).ok = true := by
      unfold scanWalSegment
      rw [hscan]
    obtain ⟨read', hread'⟩ :=
      WalSegmentReader.exists_readAll (file.take (segmentHeaderSize + size))
    refine ⟨file.take (segmentHeaderSize + size), by rw [hrecover], List.take_prefix _ _,
      fun h => ?_, fun _ => ⟨hok, ?_, recover_of_ok hok⟩, read, read', hread, hread',
      readAll_take hvalid hframes hread hread'⟩
    · rw [hrecover] at h
      exact absurd h.symm Bool.false_ne_true
    · unfold scanWalSegment
      rw [hscan, hrecover]
  · refine ⟨file, hleft, List.prefix_rfl, fun _ => rfl, fun h => ?_, read, read, hread, hread, rfl⟩
    exact absurd (hfailed.symm.trans h) (by decide)

/-- Recovery of any file fails closed, is idempotent and loses no record. Opening a writer
on a file with bytes in it leaves what recovery would leave, or a failed writer that never
touches the file. -/
theorem recovery_keeps_records (file : List UInt8) :
    (∃ file', (recoverWalSegment (.file file)).2 = .file file' ∧ Recovered file file') ∧
      (file ≠ [] → ∀ (config : WalWriterConfig) (outcomes : List SinkOutcome),
        let writer :=
          WalSegmentWriter.create config { entry := .file file, outcomes := outcomes }
        (writer.writerError = .none ∧ writer.file.entry = (recoverWalSegment (.file file)).2 ∧
            writer.file.buffer = []) ∨
          writer.writerError ≠ .none ∧
            ∀ calls, let after := (WalSegmentWriter.machine.run writer calls).2
              after.writerError = writer.writerError ∧ after.file.entry = .file file) := by
  refine ⟨recovered file, fun hne config outcomes => ?_⟩
  rcases WalSegmentWriter.create_recovers config outcomes hne with hopened | ⟨herror, hentry⟩
  · exact .inl hopened
  · refine .inr ⟨herror, fun calls => ?_⟩
    obtain ⟨hsame, hfile⟩ := WalSegmentWriter.run_of_error herror calls
    exact ⟨hsame, by rw [hfile, hentry]⟩

end Wal
