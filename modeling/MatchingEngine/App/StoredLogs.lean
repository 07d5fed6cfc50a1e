import MatchingEngine.App.Pipeline
import MatchingEngine.Wal.Crashes

/-!
# What a log delivers

A replay reads from a file exactly what a reader returns, as long as the records are of the
expected type and size. Which files deliver what is therefore a question about the reader: a
complete segment delivers its records exactly when the reader expects their numbers.
-/

namespace App

open MatchingEngine Wal

/-! ## Reading -/

section Reading

variable {α : Type} (layout : StorageLayout α) (recordType : UInt32)

/-- A record of the log is read as this domain record. -/
structure ReadsAs (stored : WalRecord) (record : α) : Prop where
  type : stored.recordType = recordType
  size : stored.payload.length = layout.size
  record : layout.ofBytes stored.payload = record

variable {layout recordType} {file : List UInt8} {reader : WalSegmentReader}

/-- A stored domain record is read as such, and as no other. -/
theorem readsAs_of_stores {stored : WalRecord} {record : α}
    (h : Stores layout recordType stored record) : ReadsAs layout recordType stored record := by
  obtain ⟨htype, tail, hpayload⟩ := h
  refine ⟨htype, ?_, ?_⟩
  · rw [hpayload, layout.toBytes_length]
  · rw [hpayload, layout.ofBytes_toBytes]

theorem ReadsAs.unique {stored : List WalRecord} {records records' : List α}
    (h : List.Forall₂ (ReadsAs layout recordType) stored records)
    (h' : List.Forall₂ (ReadsAs layout recordType) stored records') : records = records' := by
  induction h generalizing records' with
  | nil => cases h'; rfl
  | cons hfirst _ ih =>
    cases h' with
    | cons hfirst' hrest' => rw [← hfirst.record, hfirst'.record, ih hrest']

variable (layout recordType) in
/-- A call of `read_next` without a record. -/
theorem replayReadNext_of_none {result : WalReadResult} {after : WalSegmentReader}
    (hread : reader.readNext file = (result, none, after)) :
    (replayReadNext layout recordType file reader).1 =
      if result.status = .endOfLog then .endOfLog else .failed := by
  have hstatus : result.status ≠ .recordRead := by
    intro h
    have hsome := (readNext_isSome file reader).mpr (by rw [hread]; exact h)
    rw [hread] at hsome
    cases hsome
  have hstorage : readStorageRecord layout recordType file reader = (result, none, after) := by
    unfold readStorageRecord readNextRecord
    rw [hread, if_pos hstatus, if_pos hstatus]
  unfold replayReadNext
  rw [hstorage]
  cases hcase : result.status <;> simp_all

variable (layout recordType) in
/-- A call of `read_next` with a record. -/
theorem replayReadNext_of_view {result : WalReadResult} {view : WalRecordView}
    {after : WalSegmentReader} (hread : reader.readNext file = (result, some view, after)) :
    let stored : WalRecord := ⟨view.header.recordType, result.position, view.payload⟩
    (∃ record, ReadsAs layout recordType stored record ∧
        replayReadNext layout recordType file reader = (.recordRead record, after)) ∨
      (∀ record, ¬ ReadsAs layout recordType stored record) ∧
        (replayReadNext layout recordType file reader).1 = .failed := by
  intro stored
  have hstatus : result.status = .recordRead := by
    have h := (readNext_isSome file reader).mp (by rw [hread]; rfl)
    rwa [hread] at h
  have hrecord : readNextRecord file reader = (result, some stored, after) := by
    unfold readNextRecord
    rw [hread, if_neg (not_not.mpr hstatus)]
    rfl
  have hstorage : readStorageRecord layout recordType file reader =
      if stored.recordType ≠ recordType then
        ({ result with status := .failed, error := .recordTypeMismatch }, none, after)
      else if stored.payload.length ≠ layout.size then
        ({ result with status := .failed, error := .payloadSizeMismatch }, none, after)
      else (result, some (layout.ofBytes stored.payload), after) := by
    unfold readStorageRecord
    rw [hrecord, if_neg (not_not.mpr hstatus)]
    rfl
  unfold replayReadNext
  rw [hstorage]
  by_cases htype : stored.recordType = recordType
  · rw [if_neg (not_not.mpr htype)]
    by_cases hsize : stored.payload.length = layout.size
    · rw [if_neg (not_not.mpr hsize)]
      refine .inl ⟨layout.ofBytes stored.payload, ⟨htype, hsize, rfl⟩, ?_⟩
      dsimp only
      rw [hstatus]
      rfl
    · rw [if_pos hsize]
      exact .inr ⟨fun record h => hsize h.size, rfl⟩
  · rw [if_pos htype]
    exact .inr ⟨fun record h => htype h.type, rfl⟩

/-- A replay reads a log to its end exactly when a reader does and the records are of the
expected type and size. -/
theorem readScript_delivers_iff {calls : ℕ} {records : List α} :
    (readScript layout recordType file calls reader).Delivers records ↔
      ∃ read, WalSegmentReader.readRecords file calls reader = some read ∧
        read.final.status = .endOfLog ∧
        List.Forall₂ (ReadsAs layout recordType) read.records records := by
  induction calls generalizing reader records with
  | zero =>
    refine iff_of_false ?_ ?_
    · rintro ⟨rest, hscript⟩
      simp [readScript] at hscript
    · rintro ⟨read, hread, -⟩
      cases hread
  | succ calls ih =>
    unfold readScript WalSegmentReader.readRecords
    generalize hnext : reader.readNext file = next
    obtain ⟨result, view, after⟩ := next
    cases view with
    | none =>
      have houtcome := replayReadNext_of_none layout recordType hnext
      dsimp only
      rw [houtcome]
      by_cases hend : result.status = .endOfLog
      · rw [if_pos hend, ReadScript.delivers_endOfLog_cons]
        constructor
        · rintro rfl
          exact ⟨_, rfl, hend, .nil⟩
        · rintro ⟨read, hread, -, hrecords⟩
          obtain rfl := Option.some.inj hread
          cases hrecords
          rfl
      · rw [if_neg hend]
        refine iff_of_false ReadScript.not_delivers_failed_cons ?_
        rintro ⟨read, hread, hfinal, -⟩
        obtain rfl := Option.some.inj hread
        exact hend hfinal
    | some view =>
      dsimp only
      rcases replayReadNext_of_view layout recordType hnext with
        ⟨record, hreads, houtcome⟩ | ⟨hnone, houtcome⟩
      · rw [houtcome, ReadScript.delivers_recordRead_cons]
        constructor
        · rintro ⟨rest, rfl, hdelivers⟩
          obtain ⟨read, hread, hend, hrecords⟩ := ih.mp hdelivers
          exact ⟨_, Option.map_eq_some_iff.mpr ⟨read, hread, rfl⟩, hend, .cons hreads hrecords⟩
        · rintro ⟨read, hread, hend, hrecords⟩
          obtain ⟨later, hlater, rfl⟩ := Option.map_eq_some_iff.mp hread
          cases hrecords with
          | @cons _ first _ rest hfirst hrest =>
            obtain rfl : record = first := hreads.record.symm.trans hfirst.record
            exact ⟨rest, rfl, ih.mpr ⟨later, hlater, hend, hrest⟩⟩
      · rw [houtcome]
        refine iff_of_false ReadScript.not_delivers_failed_cons ?_
        rintro ⟨read, hread, hend, hrecords⟩
        obtain ⟨later, -, rfl⟩ := Option.map_eq_some_iff.mp hread
        cases hrecords with
        | cons hfirst hrest => exact hnone _ hfirst

/-- What a log delivers to a replay: the records a reader returns, all of the expected type and
size, up to the end of the log. -/
theorem logScript_delivers_iff {entry : FileEntry} {records : List α} :
    (logScript layout recordType entry).Delivers records ↔
      ∃ read, WalSegmentReader.readAll entry = some read ∧ read.final.status = .endOfLog ∧
        List.Forall₂ (ReadsAs layout recordType) read.records records :=
  readScript_delivers_iff

/-- Only a file with a valid segment header delivers anything. -/
theorem valid_of_delivers {entry : FileEntry} {records : List α}
    (h : (logScript layout recordType entry).Delivers records) :
    ∃ bytes, entry = .file bytes ∧ SegmentHeaderValid bytes := by
  obtain ⟨read, hread, hend, -⟩ := logScript_delivers_iff.mp h
  cases entry with
  | absent =>
    obtain rfl := Option.some.inj hread
    cases hend
  | directory =>
    obtain rfl := Option.some.inj hread
    cases hend
  | file bytes =>
    refine ⟨bytes, rfl, ?_⟩
    by_contra hinvalid
    obtain ⟨error, hread'⟩ := WalSegmentReader.readAll_of_invalid hinvalid
    obtain rfl := Option.some.inj (hread.symm.trans hread')
    cases hend

end Reading

/-! ## Complete segments -/

/-- A complete segment is read to its end exactly when it has a first number and its numbers are
expected, and then all its records are returned. -/
theorem readAll_segment_iff {config : WalWriterConfig} (hstreamId : config.streamId ≠ 0)
    (hepoch : config.epoch ≠ 0) {calls : List Append} (hfits : ∀ call ∈ calls, call.Fits) :
    ∃ read, WalSegmentReader.readAll (.file (config.segmentBytes calls)) = some read ∧
      (read.final.status = .endOfLog ↔ config.firstSequence ≠ 0 ∧
        WalSegmentReader.CountsOn config.segmentHeader config.firstSequence (calls.length - 1)) ∧
      (read.final.status = .endOfLog →
        read.records = config.records config.firstSequence calls) := by
  have hheader : segmentHeaderOf (config.segmentBytes calls) = config.segmentHeader :=
    segmentHeaderOf_append _ _
  by_cases hfirst : config.firstSequence = 0
  · have hinvalid : ¬ SegmentHeaderValid (config.segmentBytes calls) := by
      intro h
      have hfields := h.fields
      rw [hheader] at hfields
      exact hfields.2.2.2.2.2 hfirst
    obtain ⟨error, hread⟩ := WalSegmentReader.readAll_of_invalid hinvalid
    exact ⟨_, hread, iff_of_false WalReadStatus.noConfusion fun h => h.1 hfirst,
      fun h => WalReadStatus.noConfusion h⟩
  · have hsegment : SegmentHeaderValid (config.segmentBytes calls) :=
      WalWriterConfig.segmentHeader_valid ⟨hstreamId, hepoch, hfirst⟩ _
    have hframes := @WalWriterConfig.frames_segment config config.firstSequence calls hfits
    have hdrop : (config.segmentBytes calls).drop segmentHeaderSize =
        config.framesBytes config.firstSequence calls :=
      List.drop_left' (WalSegmentHeader.toBytes_length _)
    have hstream : Positioned (config.segmentBytes calls) segmentHeaderSize
        (.reading segmentHeaderSize segmentHeaderSize) := .inl ⟨hsegment.complete, _, rfl⟩
    obtain ⟨read, hread⟩ := WalSegmentReader.exists_readAll (config.segmentBytes calls)
    refine ⟨read, hread, ?_⟩
    unfold WalSegmentReader.readAll at hread
    rw [WalSegmentReader.create_of_valid hsegment, hheader] at hread
    have hend := WalSegmentReader.readRecords_endOfLog_iff hframes hstreamId hepoch rfl rfl
      (WalSegmentReader.expectedSequence_first rfl) hdrop hstream hread
    rw [WalWriterConfig.views_length] at hend
    refine ⟨hend.trans (and_iff_right hfirst).symm, fun h => ?_⟩
    have hcounts := hend.mp h
    rw [← WalWriterConfig.views_length config config.firstSequence] at hcounts
    rw [WalSegmentReader.readRecords_of_complete hframes hstreamId hepoch rfl rfl
      (WalSegmentReader.expectedSequence_first rfl) hdrop hstream hread hcounts,
      WalWriterConfig.map_record_views]

section Logs

variable {α : Type} {layout : StorageLayout α} {recordType : UInt32} {streamId : UInt64}
  {sequenceOf : α → UInt64} {records : List α} {padding : ℕ → Padding}

/-- The file that holds all records of a log. -/
def logBytes (layout : StorageLayout α) (recordType : UInt32) (streamId : UInt64)
    (sequenceOf : α → UInt64) (records : List α) (padding : ℕ → Padding) : List UInt8 :=
  (logConfig streamId sequenceOf records).segmentBytes
    (storageAppends layout recordType padding records)

/-- A complete log delivers its records exactly when their number is expected one by one. -/
theorem logBytes_delivers_iff (hsize : frameLength layout.size < 2 ^ 32)
    (hstreamId : streamId ≠ 0) {delivered : List α} :
    (logScript layout recordType (.file (logBytes layout recordType streamId sequenceOf records
        padding))).Delivers delivered ↔
      delivered = records ∧ (logConfig streamId sequenceOf records).firstSequence ≠ 0 ∧
        WalSegmentReader.CountsOn (logConfig streamId sequenceOf records).segmentHeader
          (logConfig streamId sequenceOf records).firstSequence (records.length - 1) := by
  have hepoch : epoch ≠ 0 := by decide
  have hfits : ∀ call ∈ storageAppends layout recordType padding records, call.Fits :=
    storageAppends_fits hsize
  obtain ⟨read, hread, hend, hall⟩ := @readAll_segment_iff
    (logConfig streamId sequenceOf records) hstreamId hepoch _ hfits
  have hstored : List.Forall₂ (Stores layout recordType) _ records :=
    records_store (logConfig streamId sequenceOf records)
      (logConfig streamId sequenceOf records).firstSequence padding records
  rw [storageAppends_length] at hend
  rw [logScript_delivers_iff]
  unfold logBytes
  rw [← hend]
  constructor
  · rintro ⟨read', hread', hfinal, hrecords⟩
    obtain rfl := Option.some.inj (hread.symm.trans hread')
    rw [hall hfinal] at hrecords
    refine ⟨ReadsAs.unique hrecords ?_, hfinal⟩
    exact hstored.imp fun _ _ h => readsAs_of_stores h
  · rintro ⟨rfl, hfinal⟩
    refine ⟨read, hread, hfinal, ?_⟩
    rw [hall hfinal]
    exact hstored.imp fun _ _ h => readsAs_of_stores h

/-- A complete log without records of the expected type delivers something only if it has no
records at all. -/
theorem logBytes_delivers_other {β : Type} {expected : StorageLayout β} {expectedType : UInt32}
    (hsize : frameLength layout.size < 2 ^ 32) (hstreamId : streamId ≠ 0)
    (hother : recordType ≠ expectedType) (hsome : records ≠ []) {delivered : List β} :
    ¬ (logScript expected expectedType (.file (logBytes layout recordType streamId sequenceOf
      records padding))).Delivers delivered := by
  have hepoch : epoch ≠ 0 := by decide
  have hfits : ∀ call ∈ storageAppends layout recordType padding records, call.Fits :=
    storageAppends_fits hsize
  obtain ⟨read, hread, -, hall⟩ := @readAll_segment_iff
    (logConfig streamId sequenceOf records) hstreamId hepoch _ hfits
  rw [logScript_delivers_iff]
  rintro ⟨read', hread', hfinal, hrecords⟩
  obtain rfl := Option.some.inj (hread.symm.trans hread')
  rw [hall hfinal] at hrecords
  obtain ⟨first, rest, rfl⟩ := List.exists_cons_of_ne_nil hsome
  rw [storageAppends_cons, WalWriterConfig.records] at hrecords
  cases hrecords with
  | cons hfirst _ => exact hother hfirst.type

/-! ## Devices that fail -/

section Devices

variable {config : WalWriterConfig} {before appends : List Append} {opened writer :
  WalSegmentWriter} {results : List WriterResult}

/-- Records are only appended by a writer without an error, which then still has none. -/
theorem appendRecords_cons {record : α}
    (hall : (appendRecords layout recordType (record :: records) padding writer).1 = true) :
    let appended := (writer.append (storageAppend layout recordType record (padding 0))).2
    writer.writerError = .none ∧ appended.writerError = .none ∧
      appendRecords layout recordType (record :: records) padding writer =
        appendRecords layout recordType records (fun i => padding (i + 1)) appended := by
  intro appended
  unfold appendRecords at hall
  rcases writer.append_cases (storageAppend layout recordType record (padding 0)) with
    ⟨error, hresult, -⟩ | ⟨hnone, file, heq⟩
  · have hstatus : (appendStorageRecord layout recordType record (padding 0) writer).1.status ≠
        .appended := by
      rw [appendStorageRecord, hresult]
      exact WalAppendStatus.noConfusion
    rw [if_pos hstatus] at hall
    cases hall
  · have hstatus : (appendStorageRecord layout recordType record (padding 0) writer).1.status =
        .appended := by rw [appendStorageRecord, heq]
    refine ⟨hnone, ?_, ?_⟩
    · change (writer.append _).2.writerError = .none
      rw [heq]
      exact hnone
    · conv_lhs => unfold appendRecords
      exact if_neg (not_not.mpr hstatus)

/-- A writer that has appended all records is underway with them. -/
theorem appendRecords_underway (hsize : frameLength layout.size < 2 ^ 32)
    (h : WalSegmentWriter.Underway config before opened appends results writer)
    (hnone : writer.writerError = .none)
    (hall : (appendRecords layout recordType records padding writer).1 = true) :
    let after := (appendRecords layout recordType records padding writer).2
    after.writerError = .none ∧ ∃ results, WalSegmentWriter.Underway config before opened
      (appends ++ storageAppends layout recordType padding records) results after := by
  induction records generalizing appends results writer padding with
  | nil =>
    refine ⟨hnone, results, ?_⟩
    change WalSegmentWriter.Underway config before opened (appends ++ []) results writer
    rwa [List.append_nil]
  | cons record records ih =>
    obtain ⟨-, hnext, heq⟩ := appendRecords_cons hall
    rw [heq] at hall ⊢
    have hfits : (storageAppend layout recordType record (padding 0)).Fits := by
      unfold Append.Fits storageAppend
      rwa [layout.toBytes_length]
    obtain ⟨hafter, later, hlater⟩ := ih (h.append hnone hfits) hnext hall
    rw [List.append_assoc] at hlater
    rw [storageAppends_cons]
    exact ⟨hafter, later, hlater⟩

/-- What a writer leaves behind that has committed everything: the whole segment. -/
theorem destroy_of_committed (h : WalSegmentWriter.Underway config [] opened appends results writer)
    (hnone : writer.writerError = .none) (hstatus : writer.commit.1.status = .committed) :
    writer.commit.2.destroy = .file (config.segmentBytes appends) := by
  have hfile := h.file
  rw [List.nil_append, List.take_of_length_le (by rw [h.running hnone]; exact Nat.le_succ _)]
    at hfile
  have hentry := (WalSegmentWriter.intends_commit hfile hnone).2.2 hstatus
  obtain ⟨more, hmore⟩ := WalSegmentWriter.destroy_of_file hentry
  have hcount : (appendedPositions (results ++ [.commit writer.commit.1])).length =
      appends.length := by
    rw [appendedPositions_concat, ← h.running hnone]
    exact congrArg List.length (List.append_nil _)
  obtain ⟨bytes, hbytes, hfirst, -⟩ := (h.commit hnone).leaves false
  rw [List.nil_append, hcount, List.take_of_length_le (Nat.le_succ _)] at hfirst
  have hlength := hfirst.length_le
  obtain rfl : bytes = config.segmentBytes appends ++ more :=
    FileEntry.file.inj (hbytes.symm.trans hmore)
  rw [List.length_append] at hlength
  obtain rfl : more = [] := List.length_eq_zero_iff.mp (by omega)
  rw [hmore, List.append_nil]

variable {outcomes : List SinkOutcome}

/-- A log whose writing has been reported as a success is complete, whatever the device did. -/
theorem writeLog_complete (hsize : frameLength layout.size < 2 ^ 32) (hsome : records ≠ [])
    (hok : (writeLog layout recordType streamId sequenceOf records padding outcomes).1 = true) :
    (writeLog layout recordType streamId sequenceOf records padding outcomes).2 =
      .file (logBytes layout recordType streamId sequenceOf records padding) := by
  unfold writeLog at hok ⊢
  generalize hopened : WalSegmentWriter.create (logConfig streamId sequenceOf records)
    { entry := .absent, outcomes := outcomes } = opened at hok ⊢
  dsimp only at hok ⊢
  have hall : (appendRecords layout recordType records padding opened).1 = true := by
    by_contra hnot
    rw [if_pos (by simpa using hnot)] at hok
    cases hok
  rw [if_neg (by rw [hall]; exact Bool.noConfusion), if_neg hsome] at hok ⊢
  have hnone : opened.writerError = .none := by
    obtain ⟨record, rest, rfl⟩ := List.exists_cons_of_ne_nil hsome
    exact (appendRecords_cons hall).1
  have hunderway : WalSegmentWriter.Underway (logConfig streamId sequenceOf records) [] opened []
      [] opened := by
    have hfresh := WalSegmentWriter.create_fresh (logConfig streamId sequenceOf records)
      (.inl rfl) outcomes
    rw [hopened] at hfresh
    exact hfresh.resolve_left fun hrefused => hrefused.writerError hnone
  obtain ⟨hafter, results, hwritten⟩ := appendRecords_underway hsize hunderway hnone hall
  exact destroy_of_committed hwritten hafter (of_decide_eq_true hok)

/-- Without records there is nothing, or a part of the segment header. -/
theorem writeLog_nil (outcomes : List SinkOutcome) :
    let written := writeLog layout recordType streamId sequenceOf [] padding outcomes
    written.1 = true ∧ (written.2 = .absent ∨ ∃ bytes, written.2 = .file bytes ∧
      bytes <+: logBytes layout recordType streamId sequenceOf [] padding) := by
  refine ⟨rfl, ?_⟩
  change (WalSegmentWriter.create (logConfig streamId sequenceOf []) _).destroy = _ ∨ ∃ bytes,
    (WalSegmentWriter.create (logConfig streamId sequenceOf []) _).destroy = _ ∧ _
  rcases WalSegmentWriter.create_fresh (logConfig streamId sequenceOf []) (.inl rfl) outcomes with
    hrefused | hunderway
  · exact .inl (hrefused.leaves false)
  · obtain ⟨bytes, hentry, hfirst, -⟩ := hunderway.leaves false
    exact .inr ⟨bytes, hentry, hfirst⟩

/-- Writing does not make a directory. -/
theorem writeLog_ne_directory (hsize : frameLength layout.size < 2 ^ 32)
    (hok : (writeLog layout recordType streamId sequenceOf records padding outcomes).1 = true) :
    (writeLog layout recordType streamId sequenceOf records padding outcomes).2 ≠ .directory := by
  rcases eq_or_ne records [] with rfl | hsome
  · rcases (writeLog_nil outcomes).2 with habsent | ⟨bytes, hentry, -⟩
    · rw [habsent]
      exact FileEntry.noConfusion
    · rw [hentry]
      exact FileEntry.noConfusion
  · rw [writeLog_complete hsize hsome hok]
    exact FileEntry.noConfusion

/-- What has been written delivers something only if it is complete. -/
theorem writeLog_of_delivers (hsize : frameLength layout.size < 2 ^ 32) {β : Type}
    {expected : StorageLayout β} {expectedType : UInt32} {delivered : List β}
    (hok : (writeLog layout recordType streamId sequenceOf records padding outcomes).1 = true)
    (hdelivers : (logScript expected expectedType
      (writeLog layout recordType streamId sequenceOf records padding outcomes).2).Delivers
        delivered) :
    (writeLog layout recordType streamId sequenceOf records padding outcomes).2 =
      .file (logBytes layout recordType streamId sequenceOf records padding) := by
  rcases eq_or_ne records [] with rfl | hsome
  · rcases (writeLog_nil outcomes).2 with habsent | ⟨bytes, hentry, hfirst⟩
    · obtain ⟨bytes, hfile, -⟩ := valid_of_delivers hdelivers
      exact FileEntry.noConfusion (habsent.symm.trans hfile)
    · -- a part of the header that is no shorter than the header is the header
      obtain ⟨file, hfile, hvalid⟩ := valid_of_delivers hdelivers
      obtain rfl : bytes = file := FileEntry.file.inj (hentry.symm.trans hfile)
      rw [hentry, hfirst.eq_of_length_le]
      exact hvalid.complete
  · exact writeLog_complete hsize hsome hok

end Devices

end Logs

end App
