import MatchingEngine.Wal.CommitProtocol
import MatchingEngine.Wal.ReaderFrames
import MatchingEngine.Wal.ScannerFrames
import MatchingEngine.Wal.WrittenFrames

/-!
# Writing in sessions

A writer that is ready stands behind the bytes of its segment: the bytes in the file and
the bytes held back are together these bytes, and the next number is the next one.
Opening, appending, committing and closing keep this, whatever part of the bytes is held
back at any time, so the file of any number of sessions is read back as the concatenation
of their records.
-/

namespace Wal

open Framing InputStream

namespace WalSegmentWriter

/-- A writer that stands behind these bytes of its segment, written in this session or
before, and goes on with the given number. -/
structure Ready (config : WalWriterConfig) (sequence : UInt64) (bytes : List UInt8)
    (writer : WalSegmentWriter) : Prop where
  streamId : writer.streamId = config.streamId
  epoch : writer.epoch = config.epoch
  nextSequence : writer.nextSequence = sequence
  writerError : writer.writerError = .none
  file : writer.file.Holds bytes

variable {config : WalWriterConfig} {calls : List Append} {writer : WalSegmentWriter}
  {sequence : UInt64} {bytes : List UInt8}

/-- A new header is the one of the configuration. -/
theorem makeHeader_eq (hstream : writer.streamId = config.streamId)
    (hepoch : writer.epoch = config.epoch) (call : Append) (sequence : UInt64) :
    writer.makeHeader call sequence = config.recordHeader sequence call := by
  unfold WalWriterConfig.recordHeader makeHeader
  rw [hstream, hepoch]
  rfl

/-- Appending a record succeeds and adds its bytes behind the others. -/
theorem Ready.append (h : Ready config sequence bytes writer) (call : Append) :
    (writer.append call).1 =
        { status := .appended, position := ⟨config.streamId, config.epoch, sequence⟩ } ∧
      Ready config (sequence + 1) (bytes ++ config.appendedBytes sequence call)
        (writer.append call).2 := by
  have hheader := makeHeader_eq h.streamId h.epoch call writer.nextSequence
  have hfile := ((h.file.write (config.recordHeader writer.nextSequence call).toBytes).write_if
    call.payload not_not.mp).write_if
      (List.replicate (paddingFor (.ofNat recordHeaderSize + .ofNat call.payload.length)
        defaultRecordAlignment).toNat 0)
      (p := paddingFor (.ofNat recordHeaderSize + .ofNat call.payload.length)
        defaultRecordAlignment ≠ 0) fun hzero => by rw [not_not.mp hzero]; rfl
  rw [List.append_assoc, List.append_assoc] at hfile
  unfold WalSegmentWriter.append writeRecord
  rw [if_neg (not_not.mpr h.writerError), if_neg (by rw [h.file.failed]; exact Bool.false_ne_true)]
  simp only [hheader]
  rw [if_neg (by rw [hfile.failed]; exact Bool.false_ne_true)]
  refine ⟨?_, h.streamId, h.epoch, ?_, h.writerError, ?_⟩
  · rw [h.streamId, h.epoch, h.nextSequence]
  · rw [← h.nextSequence]
  · rw [h.nextSequence] at hfile ⊢
    exact hfile

/-- Appending records adds their bytes behind the others, whether they fit or not. -/
theorem Ready.appendEach (h : Ready config sequence bytes writer) (calls : List Append) :
    Ready config (sequence + .ofNat calls.length) (bytes ++ config.appendedFrom sequence calls)
      (writer.appendAll calls) := by
  induction calls generalizing sequence bytes writer with
  | nil => simpa [WalSegmentWriter.appendAll, WalWriterConfig.appendedFrom] using h
  | cons call calls ih =>
    have hrest := ih (h.append call).2
    rwa [List.append_assoc, WalWriterConfig.add_one_add_ofNat] at hrest

/-- Appending records that fit adds them behind the records of the segment. -/
theorem Ready.appendAll
    (h : Ready config (config.firstSequence + .ofNat calls.length) (config.segmentBytes calls)
      writer) {more : List Append} (hfits : ∀ call ∈ more, call.Fits) :
    Ready config (config.firstSequence + .ofNat (calls ++ more).length)
      (config.segmentBytes (calls ++ more)) (writer.appendAll more) := by
  have hmore := h.appendEach more
  rwa [WalWriterConfig.appendedFrom_eq hfits, ← WalWriterConfig.segmentBytes_append,
    UInt64.add_assoc, ← UInt64.ofNat_add, ← List.length_append] at hmore

/-- A commit succeeds and brings all bytes to the file. -/
theorem Ready.commit (h : Ready config sequence bytes writer) :
    writer.commit.1.status = .committed ∧ Ready config sequence bytes writer.commit.2 := by
  obtain ⟨hflush, -⟩ := h.file.flush
  unfold WalSegmentWriter.commit
  rw [if_neg (not_not.mpr h.writerError)]
  simp only
  rw [if_neg (by rw [hflush.failed]; exact Bool.false_ne_true)]
  exact ⟨rfl, h.streamId, h.epoch, h.nextSequence, h.writerError, hflush⟩

/-- After a commit all bytes are in the file. -/
theorem Ready.commit_entry (h : Ready config sequence bytes writer) :
    writer.commit.2.file.entry = .file bytes := by
  obtain ⟨hflush, hentry⟩ := h.file.flush
  unfold WalSegmentWriter.commit
  rw [if_neg (not_not.mpr h.writerError)]
  simp only
  rw [if_neg (by rw [hflush.failed]; exact Bool.false_ne_true)]
  exact hentry

/-- A writer that goes out of scope leaves all bytes in the file. -/
theorem Ready.destroy (h : Ready config sequence bytes writer) :
    writer.destroy = .file bytes := by
  unfold WalSegmentWriter.destroy
  rw [if_pos h.file.isOpen]
  exact h.file.flush.1.close

/-- Opening a path where nothing is, or an empty file, writes the segment header. -/
theorem ready_create_fresh (config : WalWriterConfig) {entry : FileEntry}
    (hfresh : entry = .absent ∨ entry = .file []) {outcomes : List SinkOutcome}
    (houtcomes : ∀ outcome ∈ outcomes, outcome.fails = false) :
    Ready config config.firstSequence (config.segmentBytes [])
      (create config { entry := entry, outcomes := outcomes }) := by
  have hreliable : OutputStream.Reliable { entry := entry, outcomes := outcomes } := houtcomes
  have hopen : OutputStream.Holds [] (OutputStream.openAppend
      { entry := entry, outcomes := outcomes }) := by
    rcases hfresh with rfl | rfl
    · exact hreliable.openAppend_absent rfl rfl rfl
    · exact hreliable.openAppend_file rfl rfl rfl
  have hwritten := hopen.write config.segmentHeader.toBytes
  have hbytes : [] ++ config.segmentHeader.toBytes = config.segmentBytes [] := by
    rw [WalWriterConfig.segmentBytes, WalWriterConfig.framesBytes, List.nil_append,
      List.append_nil]
  rw [hbytes] at hwritten
  have hdirectory : entry ≠ .directory := by
    rcases hfresh with rfl | rfl <;> simp
  have hempty : entry.bytes?.getD [] = [] := by
    rcases hfresh with rfl | rfl <;> rfl
  have hcreate : create config { entry := entry, outcomes := outcomes } =
      { config.writer with
        file := (OutputStream.openAppend { entry := entry, outcomes := outcomes }).write
          config.segmentHeader.toBytes } := by
    unfold create
    rw [if_neg hdirectory]
    simp only [hempty, if_true, ne_eq, not_true, if_false]
    rw [if_neg (by exact fun h => Bool.false_ne_true (hwritten.failed.symm.trans h))]
    rfl
  rw [hcreate]
  exact ⟨rfl, rfl, rfl, rfl, hwritten⟩

/-- The header of an existing segment is read back. -/
theorem readExistingSegmentHeader_of_valid {file : List UInt8}
    (hvalid : SegmentHeaderValid file) :
    readExistingSegmentHeader (.file file) = (.none, segmentHeaderOf file) := by
  have hread := read_segmentHeader hvalid.complete
  have hheader : WalSegmentHeader.ofBytes (file.take segmentHeaderSize) = segmentHeaderOf file :=
    rfl
  have hcount : (reading segmentHeaderSize segmentHeaderSize).gcount = segmentHeaderSize := rfl
  unfold readExistingSegmentHeader
  simp only [FileEntry.openRead, hread, hheader, hcount]
  rw [if_neg (not_not.mpr rfl), if_neg (not_not.mpr hvalid.fields),
    if_neg (not_not.mpr hvalid.checksum)]

/-- A segment with anything behind its records: its header is valid and its frames are
the records and what is found behind them. -/
theorem segment_append (hvalid : config.Valid) (hfits : ∀ call ∈ calls, call.Fits)
    {rest : List UInt8} {views : List WalRecordView} {size : ℕ} {ending : Option WalError}
    (hrest : Frames config.segmentHeader (config.firstSequence + .ofNat calls.length) rest views
      size ending) :
    SegmentHeaderValid (config.segmentBytes calls ++ rest) ∧
      segmentHeaderOf (config.segmentBytes calls ++ rest) = config.segmentHeader ∧
      Frames (segmentHeaderOf (config.segmentBytes calls ++ rest))
        (segmentHeaderOf (config.segmentBytes calls ++ rest)).firstSequence
        ((config.segmentBytes calls ++ rest).drop segmentHeaderSize)
        (config.views config.firstSequence calls ++ views)
        (WalWriterConfig.framesLength calls + size) ending := by
  have hbytes : config.segmentBytes calls ++ rest = config.segmentHeader.toBytes ++
      (config.framesBytes config.firstSequence calls ++ rest) := by
    rw [WalWriterConfig.segmentBytes, List.append_assoc]
  have hheader : segmentHeaderOf (config.segmentBytes calls ++ rest) = config.segmentHeader := by
    rw [hbytes, segmentHeaderOf_append]
  have hdrop : (config.segmentBytes calls ++ rest).drop segmentHeaderSize =
      config.framesBytes config.firstSequence calls ++ rest := by
    rw [hbytes, List.drop_left' (WalSegmentHeader.toBytes_length _)]
  refine ⟨?_, hheader, ?_⟩
  · rw [hbytes]
    exact WalWriterConfig.segmentHeader_valid hvalid _
  · rw [hheader, hdrop]
    exact WalWriterConfig.frames_append hfits hrest

/-- The position of the last record gives the number of the next one. -/
theorem nextSequence_of_last (hvalid : config.Valid)
    (hwrap : config.firstSequence.toNat + calls.length ≤ 2 ^ 64) :
    startingSequence config (lastOf {} (config.views config.firstSequence calls)) =
      config.firstSequence + .ofNat calls.length := by
  unfold startingSequence
  rcases List.eq_nil_or_concat calls with rfl | ⟨earlier, call, rfl⟩
  · rw [WalWriterConfig.views, lastOf_nil, if_neg fun h => h.1 rfl]
    simp
  · have hnonzero : config.firstSequence + .ofNat earlier.length ≠ 0 := by
      intro hzero
      have hvalue := congrArg UInt64.toNat hzero
      rw [UInt64.toNat_add, UInt64.toNat_ofNat', UInt64.toNat_zero] at hvalue
      have hfirst : config.firstSequence.toNat ≠ 0 :=
        fun h => hvalid.2.2 (UInt64.toNat_inj.mp h)
      rw [List.concat_eq_append, List.length_append, List.length_singleton] at hwrap
      omega
    rw [List.concat_eq_append, WalWriterConfig.lastOf_views_concat,
      if_pos ⟨hvalid.1, hvalid.2.1, hnonzero⟩, List.length_append, List.length_singleton,
      UInt64.ofNat_add, UInt64.ofNat_one, UInt64.add_assoc]

/-- Opening a segment with these records and possibly a cut-off record behind them
leaves the records and goes on behind the position of the last one. -/
theorem prepareExistingSegment_eq (hvalid : config.Valid) (hfits : ∀ call ∈ calls, call.Fits)
    {torn : List UInt8} {ending : Option WalError}
    (htorn : Frames config.segmentHeader (config.firstSequence + .ofNat calls.length) torn [] 0
      ending)
    (hending : ending = none ∧ torn = [] ∨ ending = some .incompleteTrailingRecord)
    (outcomes : List SinkOutcome) :
    let lastPosition := lastOf {} (config.views config.firstSequence calls)
    prepareExistingSegment config.firstSequence []
        { config.writer with
          file := { entry := .file (config.segmentBytes calls ++ torn), outcomes := outcomes } } =
      (.none,
        { config.writer with
          file := { entry := .file (config.segmentBytes calls), outcomes := outcomes }
          lastPosition := lastPosition
          lastCommittedPosition := lastPosition
          nextSequence := startingSequence config lastPosition }) := by
  intro lastPosition
  obtain ⟨hsegment, hheader, hframes⟩ := segment_append hvalid hfits htorn
  have hscan := WalSegmentScanner.scan_of_frames hsegment hframes
  have hoffset : WalSegmentScanner.offsetAt (config.segmentBytes calls ++ torn)
      (segmentHeaderSize + (WalWriterConfig.framesLength calls + 0)) =
      (config.segmentBytes calls).length := by
    rw [WalSegmentScanner.offsetAt, if_pos, WalWriterConfig.segmentBytes_length, Nat.add_zero]
    rw [List.length_append, WalWriterConfig.segmentBytes_length]
    omega
  rw [hoffset, List.append_nil] at hscan
  unfold prepareExistingSegment
  simp only [readExistingSegmentHeader_of_valid hsegment, hheader, hscan]
  rw [if_neg (not_not.mpr rfl), if_neg fun h => h.elim (fun h => h rfl)
    fun h => h.elim (fun h => h rfl) fun h => h rfl]
  have hfirst : config.segmentHeader.firstSequence = config.firstSequence := rfl
  rcases hending with ⟨rfl, rfl⟩ | rfl
  · simp only [WalSegmentScanner.endAt, hfirst, List.append_nil]
    rw [if_neg (by simp), if_neg (by simp)]
    rfl
  · simp only [WalSegmentScanner.endAt, WalSegmentScanner.incompleteAt, hfirst, FileEntry.resize]
    rw [if_neg (by simp), if_pos trivial, List.takeD_left]
    rfl

/-- A writer that is opened on a segment with these records, and possibly a cut-off
record behind them, can go on. -/
theorem ready_create_file (hvalid : config.Valid) (hfits : ∀ call ∈ calls, call.Fits)
    {torn : List UInt8} {ending : Option WalError}
    (htorn : Frames config.segmentHeader (config.firstSequence + .ofNat calls.length) torn [] 0
      ending)
    (hending : ending = none ∧ torn = [] ∨ ending = some .incompleteTrailingRecord)
    {outcomes : List SinkOutcome} (houtcomes : ∀ outcome ∈ outcomes, outcome.fails = false) :
    Ready config (startingSequence config (lastOf {} (config.views config.firstSequence calls)))
      (config.segmentBytes calls)
      (create config
        { entry := .file (config.segmentBytes calls ++ torn), outcomes := outcomes }) := by
  have hreliable : OutputStream.Reliable
      { entry := .file (config.segmentBytes calls), outcomes := outcomes } := houtcomes
  have hopen := hreliable.openAppend_file rfl rfl rfl
  have hprepared := prepareExistingSegment_eq hvalid hfits htorn hending outcomes
  have hnonempty : config.segmentBytes calls ++ torn ≠ [] := by
    intro hempty
    have hlength := congrArg List.length hempty
    rw [List.length_append, WalWriterConfig.segmentBytes_length, segmentHeaderSize,
      List.length_nil] at hlength
    omega
  have hwriter : create config
      { entry := .file (config.segmentBytes calls ++ torn), outcomes := outcomes } =
      { config.writer with
        file := OutputStream.openAppend
          { entry := .file (config.segmentBytes calls), outcomes := outcomes }
        lastPosition := lastOf {} (config.views config.firstSequence calls)
        lastCommittedPosition := lastOf {} (config.views config.firstSequence calls)
        nextSequence :=
          startingSequence config (lastOf {} (config.views config.firstSequence calls)) } := by
    unfold create
    rw [if_neg (by simp)]
    simp only [FileEntry.bytes?, Option.getD_some, hnonempty, if_false]
    unfold WalWriterConfig.writer at hprepared ⊢
    rw [hprepared]
    rfl
  rw [hwriter]
  exact ⟨rfl, rfl, rfl, rfl, hopen⟩

/-- A session on a new path. -/
theorem session_fresh (config : WalWriterConfig) {calls : List Append}
    (hfits : ∀ call ∈ calls, call.Fits) {entry : FileEntry}
    (hfresh : entry = .absent ∨ entry = .file []) {outcomes : List SinkOutcome}
    (houtcomes : ∀ outcome ∈ outcomes, outcome.fails = false) :
    session config calls outcomes entry = .file (config.segmentBytes calls) := by
  have hcreate : Ready config (config.firstSequence + .ofNat ([] : List Append).length)
      (config.segmentBytes []) (create config { entry := entry, outcomes := outcomes }) := by
    simpa using ready_create_fresh config hfresh houtcomes
  have hready := hcreate.appendAll hfits
  exact hready.commit.2.destroy

/-- A session on a segment that may end with a cut-off record. -/
theorem session_file (hvalid : config.Valid) (hfits : ∀ call ∈ calls, call.Fits)
    (hwrap : config.firstSequence.toNat + calls.length ≤ 2 ^ 64) {torn : List UInt8}
    {ending : Option WalError}
    (htorn : Frames config.segmentHeader (config.firstSequence + .ofNat calls.length) torn [] 0
      ending)
    (hending : ending = none ∧ torn = [] ∨ ending = some .incompleteTrailingRecord)
    {more : List Append} (hmore : ∀ call ∈ more, call.Fits) {outcomes : List SinkOutcome}
    (houtcomes : ∀ outcome ∈ outcomes, outcome.fails = false) :
    session config more outcomes (.file (config.segmentBytes calls ++ torn)) =
      .file (config.segmentBytes (calls ++ more)) := by
  have hopened := ready_create_file hvalid hfits htorn hending houtcomes
  rw [nextSequence_of_last hvalid hwrap] at hopened
  exact (hopened.appendAll hmore).commit.2.destroy

end WalSegmentWriter

/-- What one session appends, and what the device makes of the operations of its
stream. -/
structure Session where
  calls : List Append
  outcomes : List SinkOutcome := []
  deriving DecidableEq

/-- Sessions one after the other on one path. -/
def runSessions (config : WalWriterConfig) (sessions : List Session) (entry : FileEntry) :
    FileEntry :=
  sessions.foldl (fun entry s => WalSegmentWriter.session config s.calls s.outcomes entry) entry

/-- The conditions under which sessions can write: the ids are in use, every record fits
its length field, the numbers do not run out and no operation fails. -/
structure Writable (config : WalWriterConfig) (sessions : List Session) : Prop where
  valid : config.Valid
  fits : ∀ s ∈ sessions, ∀ call ∈ s.calls, call.Fits
  numbers : config.firstSequence.toNat + (sessions.flatMap Session.calls).length ≤ 2 ^ 64
  outcomes : ∀ s ∈ sessions, ∀ outcome ∈ s.outcomes, outcome.fails = false

variable {config : WalWriterConfig} {sessions : List Session}

/-- All records of the sessions fit. -/
theorem Writable.fits_calls (h : Writable config sessions) :
    ∀ call ∈ sessions.flatMap Session.calls, call.Fits := by
  intro call hmem
  obtain ⟨s, hs, hcall⟩ := List.mem_flatMap.mp hmem
  exact h.fits s hs call hcall

/-- Every session adds its records to the segment. -/
theorem runSessions_file (hvalid : config.Valid) {calls : List Append}
    (hcalls : ∀ call ∈ calls, call.Fits) (hfits : ∀ s ∈ sessions, ∀ call ∈ s.calls, call.Fits)
    (hwrap : config.firstSequence.toNat +
      (calls ++ sessions.flatMap Session.calls).length ≤ 2 ^ 64)
    (houtcomes : ∀ s ∈ sessions, ∀ outcome ∈ s.outcomes, outcome.fails = false) :
    runSessions config sessions (.file (config.segmentBytes calls)) =
      .file (config.segmentBytes (calls ++ sessions.flatMap Session.calls)) := by
  induction sessions generalizing calls with
  | nil => rw [List.flatMap_nil, List.append_nil]; rfl
  | cons s sessions ih =>
    rw [List.flatMap_cons, ← List.append_assoc] at hwrap ⊢
    have hlength : config.firstSequence.toNat + calls.length ≤ 2 ^ 64 := by
      rw [List.length_append, List.length_append] at hwrap
      omega
    have hend : Frames config.segmentHeader (config.firstSequence + .ofNat calls.length) [] [] 0
        none := .done rfl
    have hsession := WalSegmentWriter.session_file hvalid hcalls hlength hend
      (.inl ⟨rfl, rfl⟩) (hfits s List.mem_cons_self) (houtcomes s List.mem_cons_self)
    rw [List.append_nil] at hsession
    have hboth : ∀ call ∈ calls ++ s.calls, call.Fits := by
      intro call hmem
      rcases List.mem_append.mp hmem with hcall | hcall
      · exact hcalls call hcall
      · exact hfits s List.mem_cons_self call hcall
    rw [runSessions, List.foldl_cons, hsession]
    exact ih hboth (fun t ht => hfits t (List.mem_cons_of_mem _ ht)) hwrap
      fun t ht => houtcomes t (List.mem_cons_of_mem _ ht)

/-- The segment that sessions leave behind. -/
theorem Writable.runSessions (h : Writable config sessions) (hne : sessions ≠ []) :
    Wal.runSessions config sessions .absent =
      .file (config.segmentBytes (sessions.flatMap Session.calls)) := by
  cases sessions with
  | nil => exact absurd rfl hne
  | cons s sessions =>
    have hfirst := WalSegmentWriter.session_fresh config (h.fits s List.mem_cons_self)
      (.inl rfl) (h.outcomes s List.mem_cons_self)
    rw [Wal.runSessions, List.foldl_cons, hfirst, List.flatMap_cons]
    exact runSessions_file h.valid (h.fits s List.mem_cons_self)
      (fun t ht => h.fits t (List.mem_cons_of_mem _ ht)) h.numbers
      fun t ht => h.outcomes t (List.mem_cons_of_mem _ ht)

/-- The records of a segment are read back, and then what is found behind them. -/
theorem readAll_append (hvalid : config.Valid) {calls : List Append}
    (hfits : ∀ call ∈ calls, call.Fits) {rest : List UInt8} {views : List WalRecordView}
    {size : ℕ} {ending : Option WalError}
    (hrest : Frames config.segmentHeader (config.firstSequence + .ofNat calls.length) rest views
      size ending)
    (hcounts : WalSegmentReader.CountsOn config.segmentHeader config.firstSequence
      (calls.length + views.length)) :
    ∃ last, WalSegmentReader.readAll (.file (config.segmentBytes calls ++ rest)) =
      some { records := config.records config.firstSequence calls ++
               views.map WalRecordView.record
             final := WalSegmentReader.finalOf ending last
             lastPosition := last } := by
  obtain ⟨hsegment, hheader, hframes⟩ := WalSegmentWriter.segment_append hvalid hfits hrest
  obtain ⟨read, hread⟩ := WalSegmentReader.exists_readAll (config.segmentBytes calls ++ rest)
  have hnumbers : WalSegmentReader.CountsOn (segmentHeaderOf (config.segmentBytes calls ++ rest))
      (segmentHeaderOf (config.segmentBytes calls ++ rest)).firstSequence
      (min (config.views config.firstSequence calls ++ views).length read.records.length) := by
    rw [hheader, List.length_append, WalWriterConfig.views_length]
    exact hcounts.mono (min_le_left _ _)
  have hrecords := WalSegmentReader.readAll_of_frames hsegment hframes hread hnumbers
  rw [List.map_append, WalWriterConfig.map_record_views] at hrecords
  exact ⟨_, by rw [hread, hrecords]⟩

/-- The records of a segment are read back, and then the log ends. -/
theorem readAll_segment (hvalid : config.Valid) {calls : List Append}
    (hfits : ∀ call ∈ calls, call.Fits)
    (hcounts : WalSegmentReader.CountsOn config.segmentHeader config.firstSequence calls.length) :
    ∃ last, WalSegmentReader.readAll (.file (config.segmentBytes calls)) =
      some { records := config.records config.firstSequence calls
             final := { status := .endOfLog, error := .endOfLog, position := last }
             lastPosition := last } := by
  have hend : Frames config.segmentHeader (config.firstSequence + .ofNat calls.length) [] [] 0
      none := .done rfl
  have hread := readAll_append hvalid hfits hend hcounts
  rwa [List.append_nil, List.map_nil, List.append_nil] at hread

/-- Whatever sessions wrote to one path, a fresh reader returns the records of all of
them in order, with consecutive numbers, and then the end of the log. -/
theorem sessions_read_back (hwritable : Writable config sessions) (hne : sessions ≠ []) :
    ∃ last, WalSegmentReader.readAll (runSessions config sessions .absent) =
      some { records := config.records config.firstSequence (sessions.flatMap Session.calls)
             final := { status := .endOfLog, error := .endOfLog, position := last }
             lastPosition := last } := by
  rw [hwritable.runSessions hne]
  exact readAll_segment hwritable.valid hwritable.fits_calls
    (WalSegmentReader.countsOn_of_le hwritable.valid.2.2 hwritable.numbers)

/-- Two sessions, the first of them with bytes that reach the file early. -/
theorem sessions_read_back_two :
    ∃ last, WalSegmentReader.readAll (runSessions { streamId := 7, epoch := 3, firstSequence := 10 }
        [{ calls := [{ recordType := 200, payload := [1, 2, 3] }]
           outcomes := [.done 0, .done 9, .done 40] },
          { calls := [{ recordType := 300, payload := [], tailPadding := 5 }] }] .absent) =
      some { records := [⟨200, ⟨7, 3, 10⟩, [1, 2, 3]⟩, ⟨300, ⟨7, 3, 11⟩, []⟩]
             final := { status := .endOfLog, error := .endOfLog, position := last }
             lastPosition := last } :=
  sessions_read_back ⟨⟨by decide, by decide, by decide⟩, by decide, by decide, by decide⟩
    (by decide)

/-- Without any session there is no file and hence no end of a log. -/
theorem no_session_no_log :
    ¬ ∃ last, WalSegmentReader.readAll (runSessions { streamId := 7, epoch := 3 } [] .absent) =
      some { records := []
             final := { status := .endOfLog, error := .endOfLog, position := last }
             lastPosition := last } := by
  rintro ⟨last, hread⟩
  have hstatus : (WalSegmentReader.readAll
      (runSessions { streamId := 7, epoch := 3 } [] .absent)).map
        (fun read => read.final.status) = some .endOfLog := by
    rw [hread]
    rfl
  exact absurd hstatus (by decide)

end Wal
