import Mathlib.Data.List.Nodup
import Mathlib.Data.List.Perm.Subperm
import MatchingEngine.Wal.Recovery
import MatchingEngine.Wal.Sessions

/-!
# Positions are not used twice

The writer and the reader continue behind the last position, unless its number is zero:
then they take it for no position and start with the first number again. The scanner counts
on its own. So the numbers from the first one up to the largest and once more zero are all
that a segment has, over any sessions, and the records stay apart and readable exactly as
long as there are no more of them.
-/

namespace Wal

open Framing InputStream

/-- The record that a call asks the writer to append. -/
def WriterCall.append? : WriterCall → Option Append
  | .append call => some call
  | _ => none

/-- What one session calls before it closes the file, and what the device makes of the
operations of its stream. -/
structure CallSession where
  calls : List WriterCall
  outcomes : List SinkOutcome := []
  deriving DecidableEq

/-- The records that a session asks to append. -/
def CallSession.appends (s : CallSession) : List Append := s.calls.filterMap WriterCall.append?

/-- The record of a successful append, at the position that was handed out for it. -/
def appendedRecord? : WriterCall → WriterResult → Option WalRecord
  | .append call, .append result =>
    if result.status = .appended then
      some { recordType := call.recordType, position := result.position, payload := call.payload }
    else none
  | _, _ => none

/-- A writer as a machine that shows the records it has appended. -/
def WalSegmentWriter.recordMachine : Machine WalSegmentWriter WriterCall WalRecord where
  step writer c := ((appendedRecord? c (writer.call c).1).toList, (writer.call c).2)

/-- A path as a machine: in every session a writer is opened on what is there, called and
closed. -/
def sessionMachine (config : WalWriterConfig) : Machine FileEntry CallSession WalRecord where
  step entry s :=
    let opened := WalSegmentWriter.create config { entry := entry, outcomes := s.outcomes }
    let run := WalSegmentWriter.recordMachine.run opened s.calls
    (run.1, run.2.destroy)

/-- No two records share a position, and a fresh reader of the path returns all of them. -/
structure RecordsIntact (records : List WalRecord) (entry : FileEntry) : Prop where
  unique : (records.map WalRecord.position).Nodup
  returned : ∃ read, WalSegmentReader.readAll entry = some read ∧ records ⊆ read.records

/-- The positions that a segment has: from the first number to the largest, and zero. -/
def WalWriterConfig.positions (config : WalWriterConfig) : List WalPosition :=
  positionsFrom config.streamId config.epoch config.firstSequence
    (2 ^ 64 + 1 - config.firstSequence.toNat)

variable {config : WalWriterConfig}

/-! ## Numbers -/

/-- As long as the numbers do not come round, all positions are different. -/
theorem positionsFrom_nodup (streamId epoch sequence : UInt64) {count : ℕ}
    (hcount : count ≤ 2 ^ 64) : (positionsFrom streamId epoch sequence count).Nodup := by
  refine List.Nodup.map_on (fun i hi j hj hequal => ?_) List.nodup_range
  have hnumbers : sequence + .ofNat i = sequence + .ofNat j := congrArg WalPosition.sequence hequal
  have hvalues := congrArg UInt64.toNat ((UInt64.add_right_inj sequence).mp hnumbers)
  rw [UInt64.toNat_ofNat', UInt64.toNat_ofNat'] at hvalues
  have hi' := List.mem_range.mp hi
  have hj' := List.mem_range.mp hj
  omega

theorem mem_positionsFrom {streamId epoch sequence : UInt64} {count i : ℕ} (hi : i < count) :
    ⟨streamId, epoch, sequence + .ofNat i⟩ ∈ positionsFrom streamId epoch sequence count :=
  List.mem_map.mpr ⟨i, List.mem_range.mpr hi, rfl⟩

@[simp] theorem positionsFrom_length (streamId epoch sequence : UInt64) (count : ℕ) :
    (positionsFrom streamId epoch sequence count).length = count := by
  rw [positionsFrom, List.length_map, List.length_range]

/-- Consecutive records have consecutive positions. -/
theorem map_position_records (config : WalWriterConfig) (sequence : UInt64)
    (calls : List Append) :
    (config.records sequence calls).map WalRecord.position =
      positionsFrom config.streamId config.epoch sequence calls.length := by
  induction calls using List.reverseRecOn with
  | nil => rfl
  | append_singleton calls call ih =>
    rw [WalWriterConfig.records_append, List.map_append, ih, List.length_append,
      List.length_singleton, positionsFrom_succ]
    rfl

/-! ## One session -/

namespace WalSegmentWriter

variable {writer : WalSegmentWriter} {sequence : UInt64} {bytes : List UInt8}

/-- A pop touches neither the file nor the numbers. -/
theorem Ready.pop (h : Ready config sequence bytes writer) :
    Ready config sequence bytes writer.popCommittedPosition.2 := by
  obtain ⟨rest, hrest, -⟩ := writer.pop_cases
  rw [hrest]
  exact ⟨h.streamId, h.epoch, h.nextSequence, h.writerError, h.file⟩

/-- A writer that is ready appends everything it is asked for, with consecutive numbers,
whatever other calls come between. -/
theorem Ready.run (h : Ready config sequence bytes writer) (calls : List WriterCall) :
    let appends := calls.filterMap WriterCall.append?
    (recordMachine.run writer calls).1 = config.records sequence appends ∧
      Ready config (sequence + .ofNat appends.length)
        (bytes ++ config.appendedFrom sequence appends) (recordMachine.run writer calls).2 := by
  induction calls generalizing sequence bytes writer with
  | nil => exact ⟨rfl, by simpa [WalWriterConfig.appendedFrom] using h⟩
  | cons c calls ih =>
    cases c with
    | append call =>
      obtain ⟨hresult, hnext⟩ := h.append call
      obtain ⟨hrecords, hready⟩ := ih hnext
      rw [List.append_assoc, WalWriterConfig.add_one_add_ofNat] at hready
      refine ⟨?_, hready⟩
      rw [Machine.run_cons]
      change (appendedRecord? (.append call) (.append (writer.append call).1)).toList ++
        (recordMachine.run (writer.append call).2 calls).1 = _
      rw [hrecords, hresult]
      rfl
    | commit => exact ih h.commit.2
    | pop => exact ih h.pop

end WalSegmentWriter

/-- A session whose writer is ready. -/
theorem session_of_ready {entry : FileEntry} {s : CallSession} {sequence : UInt64}
    {bytes : List UInt8}
    (h : WalSegmentWriter.Ready config sequence bytes
      (.create config { entry := entry, outcomes := s.outcomes })) :
    (sessionMachine config).step entry s =
      (config.records sequence s.appends,
        .file (bytes ++ config.appendedFrom sequence s.appends)) := by
  obtain ⟨hrecords, hready⟩ := h.run s.calls
  exact Prod.ext hrecords hready.destroy

/-- What is at a path after these records: nothing yet, or their segment. -/
def Written (config : WalWriterConfig) (calls : List Append) (entry : FileEntry) : Prop :=
  (entry = .absent ∨ entry = .file []) ∧ calls = [] ∨ entry = .file (config.segmentBytes calls)

/-- Opening a path again gives a writer that is ready. It goes on with the next number, unless
zero is used already. -/
theorem Written.ready {calls : List Append} {entry : FileEntry} (h : Written config calls entry)
    (hvalid : config.Valid) (hfits : ∀ call ∈ calls, call.Fits) {outcomes : List SinkOutcome}
    (houtcomes : ∀ outcome ∈ outcomes, outcome.fails = false) :
    ∃ sequence, WalSegmentWriter.Ready config sequence (config.segmentBytes calls)
        (.create config { entry := entry, outcomes := outcomes }) ∧
      (config.firstSequence.toNat + calls.length ≤ 2 ^ 64 →
        sequence = config.firstSequence + .ofNat calls.length) := by
  rcases h with ⟨hfresh, rfl⟩ | rfl
  · exact ⟨_, WalSegmentWriter.ready_create_fresh config hfresh houtcomes,
      fun _ => by simp⟩
  · have hend : Frames config.segmentHeader (config.firstSequence + .ofNat calls.length) [] [] 0
        none := .done rfl
    have hready := WalSegmentWriter.ready_create_file hvalid hfits hend (.inl ⟨rfl, rfl⟩) houtcomes
    rw [List.append_nil] at hready
    exact ⟨_, hready, WalSegmentWriter.nextSequence_of_last hvalid⟩

/-- A session for which there are numbers left adds its records to those of the path. -/
theorem Written.step {calls : List Append} {entry : FileEntry} (h : Written config calls entry)
    (hvalid : config.Valid) {s : CallSession} (hfits : ∀ call ∈ calls ++ s.appends, call.Fits)
    (houtcomes : ∀ outcome ∈ s.outcomes, outcome.fails = false)
    (hnumbers : config.firstSequence.toNat + (calls ++ s.appends).length ≤ 2 ^ 64 + 1) :
    ((sessionMachine config).step entry s).1 =
        config.records (config.firstSequence + .ofNat calls.length) s.appends ∧
      Written config (calls ++ s.appends) ((sessionMachine config).step entry s).2 := by
  obtain ⟨sequence, hready, hnext⟩ := h.ready hvalid
    (fun call hcall => hfits call (List.mem_append_left _ hcall)) houtcomes
  rw [session_of_ready hready]
  cases happends : s.appends with
  | nil =>
    refine ⟨rfl, .inr ?_⟩
    rw [WalWriterConfig.appendedFrom, List.append_nil, List.append_nil]
  | cons call more =>
    -- a record is appended, so zero was not used yet
    have hle : config.firstSequence.toNat + calls.length ≤ 2 ^ 64 := by
      rw [happends, List.length_append, List.length_cons] at hnumbers
      omega
    rw [hnext hle, ← happends]
    refine ⟨rfl, .inr ?_⟩
    rw [WalWriterConfig.appendedFrom_eq fun c hc => hfits c (List.mem_append_right _ hc),
      WalWriterConfig.segmentBytes_append]

/-! ## Reading back -/

namespace WalSegmentReader

variable {file : List UInt8} {offset : ℕ} {reader : WalSegmentReader}

/-- The records of a complete segment are read even if the last number is zero: nothing is
expected behind it. -/
theorem readRecords_of_complete {views : List WalRecordView} {size : ℕ}
    {segment : WalSegmentHeader} {expected : UInt64} {input : List UInt8}
    (hframes : Frames segment expected input views size none)
    (hstreamId : segment.streamId ≠ 0) (hepoch : segment.epoch ≠ 0)
    (hopen : reader.openResult.status = .recordRead) (hsegment : reader.segmentHeader = segment)
    (hexpected : reader.expectedSequence = expected) (hinput : file.drop offset = input)
    (hstream : Positioned file offset reader.file) {calls : ℕ} {read : ReadBack}
    (hread : readRecords file calls reader = some read)
    (hcounts : CountsOn segment expected (views.length - 1)) :
    read.records = views.map WalRecordView.record := by
  generalize hending : (none : Option WalError) = ending at hframes
  induction hframes generalizing offset reader calls read with
  | done hfront =>
    rw [readRecords_of_done hopen hstream (by rw [hsegment, hexpected, hinput, hfront]) hread]
    rfl
  | stop => cases hending
  | @item expected next input view size views rest ending hfront hrest ih =>
    obtain ⟨stream, calls', read', hpositioned, hread', rfl⟩ := readRecords_of_item hopen hstream
      (by rw [hsegment, hexpected, hinput, hfront]) hread
    obtain ⟨hposition, rfl⟩ := frontAt_item hfront
    have hdrop : file.drop (offset + size) = input.drop size := by
      rw [← hinput, List.drop_drop]
    cases views with
    | nil =>
      -- whatever number is expected now, the file ends here
      have hempty : input.drop size = [] := by
        cases hrest with
        | done hdone => exact frontAt_eq_done_iff.mp hdone
        | stop => cases hending
      have hend := @readRecords_of_done file (offset + size)
        { reader with file := stream, lastPosition := view.header.position } hopen hpositioned
        (by rw [hdrop, hempty, frontAt_nil]) _ _ hread'
      rw [hend]
      rfl
    | cons second views =>
      have hexpected' : expectedSequence { reader with
          file := stream, lastPosition := view.header.position } = expected + 1 := by
        rw [← hsegment] at hcounts hposition hstreamId hepoch
        exact hcounts.expectedSequence hposition hstreamId hepoch
      have hrecords := @ih _
        { reader with file := stream, lastPosition := view.header.position } hopen hsegment
        hexpected' hdrop hpositioned _ _ hread' hcounts.next hending
      exact congrArg (view.record :: ·) hrecords

/-- The numbers of a segment are expected exactly when they do not run out, or start behind
zero. -/
theorem countsOn_first_iff {segment : WalSegmentHeader} (hpos : segment.firstSequence ≠ 0)
    {count : ℕ} :
    CountsOn segment segment.firstSequence count ↔
      segment.firstSequence = 1 ∨ segment.firstSequence.toNat + count ≤ 2 ^ 64 := by
  refine ⟨fun h => ?_, fun h => h.elim .inl (countsOn_of_le hpos)⟩
  refine h.imp_right fun hnonzero => ?_
  by_contra hlong
  -- otherwise zero is the number of one of the records
  have hrange := segment.firstSequence.toNat_lt
  refine hnonzero (2 ^ 64 - segment.firstSequence.toNat) (by omega) (UInt64.toNat_inj.mp ?_)
  rw [UInt64.toNat_add, UInt64.toNat_ofNat', UInt64.toNat_zero]
  have hfirst : segment.firstSequence.toNat ≠ 0 := fun hzero => hpos (UInt64.toNat_inj.mp hzero)
  omega

/-- One more number is expected unless it stands behind zero in a segment that does not start
there. -/
theorem countsOn_succ_iff {segment : WalSegmentHeader} {expected : UInt64} {count : ℕ} :
    CountsOn segment expected (count + 1) ↔
      (expected = 0 → segment.firstSequence = 1) ∧ CountsOn segment (expected + 1) count := by
  refine ⟨fun h => ⟨fun hzero => ?_, h.next⟩, fun ⟨hfirst, hrest⟩ => ?_⟩
  · refine h.resolve_right fun hnonzero => hnonzero 0 (Nat.succ_pos count) ?_
    rw [hzero]
    rfl
  · by_cases hzero : expected = 0
    · exact .inl (hfirst hzero)
    refine hrest.imp_right fun hnonzero i hi => ?_
    cases i with
    | zero => simpa using hzero
    | succ i =>
      rw [UInt64.ofNat_add, UInt64.ofNat_one, UInt64.add_comm (.ofNat i), ← UInt64.add_assoc]
      exact hnonzero i (by omega)

/-- A complete segment is read to its end exactly when the numbers of its records are expected.
Nothing is expected behind the last of them. -/
theorem readRecords_endOfLog_iff {views : List WalRecordView} {size : ℕ}
    {segment : WalSegmentHeader} {expected : UInt64} {input : List UInt8}
    (hframes : Frames segment expected input views size none)
    (hstreamId : segment.streamId ≠ 0) (hepoch : segment.epoch ≠ 0)
    (hopen : reader.openResult.status = .recordRead) (hsegment : reader.segmentHeader = segment)
    (hexpected : reader.expectedSequence = expected) (hinput : file.drop offset = input)
    (hstream : Positioned file offset reader.file) {calls : ℕ} {read : ReadBack}
    (hread : readRecords file calls reader = some read) :
    read.final.status = .endOfLog ↔ CountsOn segment expected (views.length - 1) := by
  have hnone : ∀ expected, CountsOn segment expected 0 := fun expected =>
    .inr fun i hi => absurd hi (Nat.not_lt_zero i)
  generalize hending : (none : Option WalError) = ending at hframes
  induction hframes generalizing offset reader calls read with
  | done hfront =>
    rw [readRecords_of_done hopen hstream (by rw [hsegment, hexpected, hinput, hfront]) hread]
    exact iff_of_true rfl (hnone _)
  | stop => cases hending
  | @item expected next input view size views rest ending hfront hrest ih =>
    obtain ⟨stream, calls', read', hpositioned, hread', rfl⟩ := readRecords_of_item hopen hstream
      (by rw [hsegment, hexpected, hinput, hfront]) hread
    obtain ⟨hposition, rfl⟩ := frontAt_item hfront
    have hdrop : file.drop (offset + size) = input.drop size := by
      rw [← hinput, List.drop_drop]
    cases views with
    | nil =>
      have hempty : input.drop size = [] := by
        cases hrest with
        | done hdone => exact frontAt_eq_done_iff.mp hdone
        | stop => cases hending
      have hend := @readRecords_of_done file (offset + size)
        { reader with file := stream, lastPosition := view.header.position } hopen hpositioned
        (by rw [hdrop, hempty, frontAt_nil]) _ _ hread'
      rw [hend]
      exact iff_of_true rfl (hnone _)
    | cons second views =>
      change read'.final.status = .endOfLog ↔ CountsOn segment expected (views.length + 1)
      rw [countsOn_succ_iff]
      by_cases hcounts : expected = 0 → segment.firstSequence = 1
      · have hexpected' : expectedSequence { reader with
            file := stream, lastPosition := view.header.position } = expected + 1 := by
          have hfirst : CountsOn reader.segmentHeader expected (0 + 1) := by
            rw [hsegment, countsOn_succ_iff]
            exact ⟨hcounts, hnone _⟩
          rw [← hsegment] at hposition hstreamId hepoch
          exact hfirst.expectedSequence hposition hstreamId hepoch
        have hlater := @ih _
          { reader with file := stream, lastPosition := view.header.position } hopen hsegment
          hexpected' hdrop hpositioned _ _ hread' hending
        exact hlater.trans (and_iff_right hcounts).symm
      · -- behind zero the first number is expected again, and there is another one
        refine iff_of_false ?_ fun h => hcounts h.1
        obtain ⟨hzero, hfirst⟩ := Classical.not_imp.mp hcounts
        have hagain : expectedSequence { reader with
            file := stream, lastPosition := view.header.position } = segment.firstSequence := by
          unfold expectedSequence
          rw [if_neg fun hvalid => hvalid.2.2 (by rw [hposition, hzero])]
          exact congrArg WalSegmentHeader.firstSequence hsegment
        have hstop : frontAt segment segment.firstSequence (input.drop size) =
            .stop .unexpectedSequence := by
          cases hrest with
          | item hsecond _ =>
            refine frontAt_other hsecond fun heq => hfirst ?_
            rw [heq, hzero]
            rfl
        have hfront' : frontAt reader.segmentHeader (expectedSequence { reader with
            file := stream, lastPosition := view.header.position }) (file.drop (offset + size)) =
              .stop .unexpectedSequence := by
          rw [hagain, hdrop, hsegment, hstop]
        have hend := @readRecords_of_stop file (offset + size)
          { reader with file := stream, lastPosition := view.header.position } hopen hpositioned
          _ hfront' _ _ hread'
        rw [hend]
        unfold finalOf
        exact WalReadStatus.noConfusion

/-- A reader expects one of the numbers that the segment has. -/
def InRange (first expected : UInt64) : Prop :=
  ∃ i < 2 ^ 64 + 1 - first.toNat, expected = first + .ofNat i

/-- The first number is in range. -/
theorem inRange_first (first : UInt64) : InRange first first :=
  ⟨0, by have := first.toNat_lt; omega, by simp⟩

/-- Behind a number in range the next one is expected, and behind zero the first one. -/
theorem InRange.next {segment : WalSegmentHeader} {expected : UInt64}
    (h : InRange segment.firstSequence expected) (hsegment : reader.segmentHeader = segment)
    (hlast : reader.lastPosition = ⟨segment.streamId, segment.epoch, expected⟩) :
    InRange segment.firstSequence reader.expectedSequence := by
  unfold expectedSequence
  split
  next hvalid =>
    obtain ⟨i, hi, rfl⟩ := h
    have hnonzero : segment.firstSequence + .ofNat i ≠ 0 := by
      rw [hlast] at hvalid
      exact hvalid.2.2
    refine ⟨i + 1, ?_, by rw [hlast, UInt64.ofNat_add, UInt64.add_assoc, UInt64.ofNat_one]⟩
    by_contra hlarge
    have hfirst := segment.firstSequence.toNat_lt
    refine hnonzero (UInt64.toNat_inj.mp ?_)
    rw [UInt64.toNat_add, UInt64.toNat_ofNat', UInt64.toNat_zero]
    omega
  next => rw [hsegment]; exact inRange_first _

/-- Whatever is in the file, a reader returns records at positions that the segment has. -/
theorem readRecords_positions {segment : WalSegmentHeader}
    (hopen : reader.openResult.status = .recordRead) (hsegment : reader.segmentHeader = segment)
    (hexpected : InRange segment.firstSequence reader.expectedSequence)
    (hstream : Positioned file offset reader.file) {calls : ℕ} {read : ReadBack}
    (hread : readRecords file calls reader = some read) :
    ∀ record ∈ read.records, record.position ∈ positionsFrom segment.streamId segment.epoch
      segment.firstSequence (2 ^ 64 + 1 - segment.firstSequence.toNat) := by
  generalize hrecords : read.records = records
  induction records generalizing offset reader calls read with
  | nil => exact fun record hmem => absurd hmem List.not_mem_nil
  | cons first records ih =>
    cases hfront : frontAt reader.segmentHeader reader.expectedSequence (file.drop offset) with
    | done =>
      rw [readRecords_of_done hopen hstream hfront hread] at hrecords
      cases hrecords
    | stop error =>
      rw [readRecords_of_stop hopen hstream hfront hread] at hrecords
      cases hrecords
    | item view next size =>
      obtain ⟨stream, calls', read', hpositioned, hread', rfl⟩ :=
        readRecords_of_item hopen hstream hfront hread
      obtain ⟨rfl, hrest⟩ := List.cons.inj hrecords
      obtain ⟨hposition, -⟩ := frontAt_item hfront
      rw [hsegment] at hposition
      intro record hmem
      rcases List.mem_cons.mp hmem with rfl | hlater
      · obtain ⟨i, hi, hequal⟩ := hexpected
        change view.header.position ∈ _
        rw [hposition, hequal]
        exact mem_positionsFrom hi
      · exact @ih _ { reader with file := stream, lastPosition := view.header.position } hopen
          hsegment (hexpected.next hsegment hposition) hpositioned _ _ hread' hrest record hlater

end WalSegmentReader

/-- The records of a segment are read back as long as it has positions for them. -/
theorem readAll_records (hvalid : config.Valid) {calls : List Append}
    (hfits : ∀ call ∈ calls, call.Fits)
    (hnumbers : config.firstSequence.toNat + calls.length ≤ 2 ^ 64 + 1) :
    ∃ read, WalSegmentReader.readAll (.file (config.segmentBytes calls)) = some read ∧
      read.records = config.records config.firstSequence calls := by
  have hsegment : SegmentHeaderValid (config.segmentBytes calls) :=
    WalWriterConfig.segmentHeader_valid hvalid _
  have hheader : segmentHeaderOf (config.segmentBytes calls) = config.segmentHeader :=
    segmentHeaderOf_append _ _
  have hframes := @WalWriterConfig.frames_segment config config.firstSequence calls hfits
  have hcounts : WalSegmentReader.CountsOn config.segmentHeader config.firstSequence
      ((config.views config.firstSequence calls).length - 1) := by
    refine WalSegmentReader.countsOn_of_le hvalid.2.2 ?_
    have hfirst := config.firstSequence.toNat_lt
    rw [WalWriterConfig.views_length]
    omega
  obtain ⟨read, hread⟩ := WalSegmentReader.exists_readAll (config.segmentBytes calls)
  refine ⟨read, hread, ?_⟩
  unfold WalSegmentReader.readAll at hread
  rw [WalSegmentReader.create_of_valid hsegment, hheader] at hread
  rw [WalSegmentReader.readRecords_of_complete hframes hvalid.1 hvalid.2.1 rfl rfl
    (WalSegmentReader.expectedSequence_first rfl)
    (List.drop_left' (WalSegmentHeader.toBytes_length _)) (.inl ⟨hsegment.complete, _, rfl⟩)
    hread hcounts, WalWriterConfig.map_record_views]

/-- The records of a path are read back as long as there are positions for them. -/
theorem Written.readAll {calls : List Append} {entry : FileEntry} (h : Written config calls entry)
    (hvalid : config.Valid) (hfits : ∀ call ∈ calls, call.Fits)
    (hnumbers : config.firstSequence.toNat + calls.length ≤ 2 ^ 64 + 1) :
    ∃ read, WalSegmentReader.readAll entry = some read ∧
      config.records config.firstSequence calls ⊆ read.records := by
  rcases h with ⟨habsent | hempty, rfl⟩ | hsegment
  · exact ⟨_, by rw [habsent]; rfl, List.nil_subset _⟩
  · exact ⟨_, by rw [hempty]; rfl, List.nil_subset _⟩
  · obtain ⟨read, hread, hrecords⟩ := readAll_records hvalid hfits hnumbers
    exact ⟨read, by rw [hsegment, hread], by rw [hrecords]; exact List.Subset.refl _⟩

/-- Behind the header of a segment a reader finds records at its positions only. -/
theorem readAll_positions (hvalid : config.Valid) {rest : List UInt8}
    {read : WalSegmentReader.ReadBack}
    (hread : WalSegmentReader.readAll (.file (config.segmentHeader.toBytes ++ rest)) =
      some read) : read.records.map WalRecord.position ⊆ config.positions := by
  have hsegment := WalWriterConfig.segmentHeader_valid hvalid rest
  unfold WalSegmentReader.readAll at hread
  rw [WalSegmentReader.create_of_valid hsegment, segmentHeaderOf_append] at hread
  intro position hmem
  obtain ⟨record, hrecord, rfl⟩ := List.mem_map.mp hmem
  refine WalSegmentReader.readRecords_positions rfl rfl ?_
    (.inl ⟨hsegment.complete, _, rfl⟩) hread record hrecord
  rw [WalSegmentReader.expectedSequence_first rfl]
  exact WalSegmentReader.inRange_first _

/-! ## All sessions -/

/-- What is at the path begins with the header of the segment. -/
def HasHeader (config : WalWriterConfig) (entry : FileEntry) : Prop :=
  ∃ rest, entry = .file (config.segmentHeader.toBytes ++ rest)

/-- A segment has no more intact records than positions. -/
theorem RecordsIntact.length_le {records : List WalRecord} {entry : FileEntry}
    (h : RecordsIntact records entry) (hvalid : config.Valid) (hheader : HasHeader config entry) :
    records.length ≤ 2 ^ 64 + 1 - config.firstSequence.toNat := by
  obtain ⟨hunique, read, hread, hreturned⟩ := h
  obtain ⟨rest, rfl⟩ := hheader
  have hpositions := List.Subset.trans (List.map_subset WalRecord.position hreturned)
    (readAll_positions hvalid hread)
  have hlength := (hunique.subperm hpositions).length_le
  rwa [List.length_map, WalWriterConfig.positions, positionsFrom_length] at hlength

/-- Opening a writer leaves the header in the file, whether or not it succeeds. -/
theorem HasHeader.create {entry : FileEntry} (h : HasHeader config entry)
    (outcomes : List SinkOutcome) :
    HasHeader config
      (WalSegmentWriter.create config { entry := entry, outcomes := outcomes }).file.entry := by
  obtain ⟨rest, rfl⟩ := h
  have hlength := config.segmentHeader.toBytes_length
  have hne : config.segmentHeader.toBytes ++ rest ≠ [] := by
    intro hempty
    rw [(List.append_eq_nil_iff.mp hempty).1] at hlength
    cases hlength
  rcases WalSegmentWriter.create_recovers config outcomes hne with ⟨-, hentry, -⟩ | ⟨-, hentry⟩
  · rw [hentry]
    rcases recover_case (config.segmentHeader.toBytes ++ rest) with
      ⟨-, hrecover⟩ | ⟨views, size, -, -, -, hrecover⟩ | ⟨-, hleft⟩
    · exact ⟨rest, by rw [hrecover]⟩
    · exact ⟨rest.take size, by rw [hrecover, ← hlength, List.take_length_add_append]⟩
    · exact ⟨rest, hleft⟩
  · exact ⟨rest, hentry⟩

/-- Bytes behind it leave the header where it is. -/
theorem HasHeader.grow {entry entry' : FileEntry} (h : HasHeader config entry)
    (hgrows : ∀ bytes, entry = .file bytes → ∃ more, entry' = .file (bytes ++ more)) :
    HasHeader config entry' := by
  obtain ⟨rest, hrest⟩ := h
  obtain ⟨more, hmore⟩ := hgrows _ hrest
  exact ⟨rest ++ more, by rw [hmore, List.append_assoc]⟩

/-- A session leaves the header in the file. -/
theorem HasHeader.session {entry : FileEntry} (h : HasHeader config entry) (s : CallSession) :
    HasHeader config ((sessionMachine config).step entry s).2 := by
  have hcalled := WalSegmentWriter.recordMachine.run_induction
    (P := fun _ writer => HasHeader config writer.file.entry) (h.create s.outcomes)
    (fun _ writer c hwriter => hwriter.grow (writer.grows_call c)) s.calls
  exact hcalled.grow fun _ hentry => WalSegmentWriter.destroy_of_file hentry

/-- After the first session the header is there. -/
theorem hasHeader_run (hvalid : config.Valid) {entry : FileEntry}
    (hfresh : entry = .absent ∨ entry = .file []) {sessions : List CallSession}
    (houtcomes : ∀ s ∈ sessions, ∀ outcome ∈ s.outcomes, outcome.fails = false)
    (hne : sessions ≠ []) : HasHeader config ((sessionMachine config).run entry sessions).2 := by
  cases sessions with
  | nil => exact absurd rfl hne
  | cons s sessions =>
    obtain ⟨sequence, hready, -⟩ := Written.ready (.inl ⟨hfresh, rfl⟩) hvalid
      (fun _ h => absurd h List.not_mem_nil) (houtcomes s List.mem_cons_self)
    rw [Machine.run_cons]
    refine (sessionMachine config).run_induction (P := fun _ entry => HasHeader config entry) ?_
      (fun _ entry s h => h.session s) sessions
    rw [session_of_ready hready, WalWriterConfig.segmentBytes, List.append_assoc]
    exact ⟨_, rfl⟩

section Sessions

variable {sessions : List CallSession} {calls : List Append} {entry : FileEntry}
  (hvalid : config.Valid)
  (hfits : ∀ call ∈ calls ++ sessions.flatMap CallSession.appends, call.Fits)
  (houtcomes : ∀ s ∈ sessions, ∀ outcome ∈ s.outcomes, outcome.fails = false)
include hvalid hfits houtcomes

/-- As long as there are numbers left, the sessions write one segment. -/
theorem Written.run (h : Written config calls entry)
    (hnumbers : config.firstSequence.toNat +
      (calls ++ sessions.flatMap CallSession.appends).length ≤ 2 ^ 64 + 1) :
    ((sessionMachine config).run entry sessions).1 =
        config.records (config.firstSequence + .ofNat calls.length)
          (sessions.flatMap CallSession.appends) ∧
      Written config (calls ++ sessions.flatMap CallSession.appends)
        ((sessionMachine config).run entry sessions).2 := by
  induction sessions generalizing calls entry with
  | nil => exact ⟨rfl, by rw [List.flatMap_nil, List.append_nil]; exact h⟩
  | cons s sessions ih =>
    rw [List.flatMap_cons, ← List.append_assoc] at hfits hnumbers
    have hnumbers' : config.firstSequence.toNat + (calls ++ s.appends).length ≤ 2 ^ 64 + 1 := by
      rw [List.length_append] at hnumbers
      omega
    obtain ⟨hrecords, hwritten⟩ := h.step hvalid
      (fun call hcall => hfits call (List.mem_append_left _ hcall))
      (houtcomes s List.mem_cons_self) hnumbers'
    obtain ⟨hrest, hend⟩ := ih hfits (fun t ht => houtcomes t (List.mem_cons_of_mem _ ht))
      hwritten hnumbers
    rw [Machine.run_cons, hrecords, hrest, List.flatMap_cons, WalWriterConfig.records_append,
      UInt64.add_assoc, ← UInt64.ofNat_add, ← List.length_append, ← List.append_assoc]
    exact ⟨rfl, hend⟩

/-- If there are not enough numbers left, too many records are appended all the same. -/
theorem Written.run_length (h : Written config calls entry)
    (hnumbers : config.firstSequence.toNat + calls.length ≤ 2 ^ 64 + 1)
    (hmany : 2 ^ 64 + 1 < config.firstSequence.toNat +
      (calls ++ sessions.flatMap CallSession.appends).length) :
    2 ^ 64 + 1 < config.firstSequence.toNat + calls.length +
      ((sessionMachine config).run entry sessions).1.length := by
  induction sessions generalizing calls entry with
  | nil =>
    rw [List.flatMap_nil, List.append_nil] at hmany
    omega
  | cons s sessions ih =>
    rw [List.flatMap_cons, ← List.append_assoc] at hfits hmany
    have hsession : ∀ call ∈ calls ++ s.appends, call.Fits :=
      fun call hcall => hfits call (List.mem_append_left _ hcall)
    obtain ⟨sequence, hready, -⟩ := h.ready hvalid
      (fun call hcall => hsession call (List.mem_append_left _ hcall))
      (houtcomes s List.mem_cons_self)
    have happended : ((sessionMachine config).step entry s).1.length = s.appends.length := by
      rw [session_of_ready hready, WalWriterConfig.records_length]
    rw [Machine.run_cons, List.length_append, happended]
    by_cases hlast : config.firstSequence.toNat + (calls ++ s.appends).length ≤ 2 ^ 64 + 1
    · have hrest := ih hfits (fun t ht => houtcomes t (List.mem_cons_of_mem _ ht))
        (h.step hvalid hsession (houtcomes s List.mem_cons_self) hlast).2 hlast hmany
      rw [List.length_append] at hrest
      omega
    · rw [List.length_append] at hlast
      omega

end Sessions

/-- In sessions on one path where every record fits and no operation fails, all appended
records have different positions and are read back if and only if the numbers from the first
one to the largest, and zero, are enough for all of them. -/
theorem recordsIntact_iff (hvalid : config.Valid) {entry : FileEntry}
    (hfresh : entry = .absent ∨ entry = .file []) {sessions : List CallSession}
    (hfits : ∀ s ∈ sessions, ∀ call ∈ s.appends, call.Fits)
    (houtcomes : ∀ s ∈ sessions, ∀ outcome ∈ s.outcomes, outcome.fails = false) :
    let run := (sessionMachine config).run entry sessions
    RecordsIntact run.1 run.2 ↔
      config.firstSequence.toNat + (sessions.flatMap CallSession.appends).length ≤ 2 ^ 64 + 1 := by
  intro run
  have hall : ∀ call ∈ [] ++ sessions.flatMap CallSession.appends, call.Fits := by
    intro call hcall
    obtain ⟨s, hs, happends⟩ := List.mem_flatMap.mp hcall
    exact hfits s hs call happends
  have hstart : Written config [] entry := .inl ⟨hfresh, rfl⟩
  have hlt := config.firstSequence.toNat_lt
  constructor
  · intro hintact
    by_contra hfew
    have hmany : 2 ^ 64 + 1 < config.firstSequence.toNat + 0 + run.1.length :=
      hstart.run_length hvalid hall houtcomes (by rw [List.length_nil]; omega)
        (Nat.lt_of_not_le hfew)
    have hne : sessions ≠ [] := by
      rintro rfl
      exact hfew (by rw [List.flatMap_nil, List.length_nil]; omega)
    have hlength := hintact.length_le hvalid (hasHeader_run hvalid hfresh houtcomes hne)
    omega
  · intro hnumbers
    obtain ⟨hrecords, hwritten⟩ := hstart.run hvalid hall houtcomes hnumbers
    have hfirst : config.firstSequence + .ofNat ([] : List Append).length =
        config.firstSequence := by simp
    have hpos : config.firstSequence.toNat ≠ 0 := fun h => hvalid.2.2 (UInt64.toNat_inj.mp h)
    rw [hfirst] at hrecords
    constructor
    · rw [hrecords, map_position_records]
      exact positionsFrom_nodup _ _ _ (by omega)
    · rw [hrecords]
      exact hwritten.readAll hvalid hall hnumbers

/-- Two sessions that use the largest number and, behind it, zero. -/
theorem recordsIntact_iff_zero :
    let sessions : List CallSession :=
      [{ calls := [.append { recordType := 1, payload := [5] }, .commit]
         outcomes := [.done 0, .done 3, .done 50] },
        { calls := [.append { recordType := 2, payload := [] }] }]
    let config : WalWriterConfig :=
      { streamId := 7, epoch := 3, firstSequence := 0xFFFFFFFFFFFFFFFF }
    let run := (sessionMachine config).run .absent sessions
    run.1.map WalRecord.position = [⟨7, 3, 0xFFFFFFFFFFFFFFFF⟩, ⟨7, 3, 0⟩] ∧
      RecordsIntact run.1 run.2 := by
  intro sessions config run
  refine ⟨by decide +kernel, ?_⟩
  exact (recordsIntact_iff ⟨by decide, by decide, by decide +kernel⟩ (.inl rfl) (by decide)
    (by decide)).mpr (by decide +kernel)

/-- After the number zero another session starts from the first number again, so two records
share a position. -/
theorem positions_reused :
    let sessions : List CallSession :=
      [{ calls := [.append { recordType := 1, payload := [5] },
          .append { recordType := 2, payload := [] }] },
        { calls := [.append { recordType := 3, payload := [6, 7] }, .commit] }]
    let config : WalWriterConfig :=
      { streamId := 7, epoch := 3, firstSequence := 0xFFFFFFFFFFFFFFFF }
    let run := (sessionMachine config).run .absent sessions
    run.1 = [⟨1, ⟨7, 3, 0xFFFFFFFFFFFFFFFF⟩, [5]⟩, ⟨2, ⟨7, 3, 0⟩, []⟩,
        ⟨3, ⟨7, 3, 0xFFFFFFFFFFFFFFFF⟩, [6, 7]⟩] ∧
      ¬ RecordsIntact run.1 run.2 := by
  intro sessions config run
  have hrecords : run.1 = [⟨1, ⟨7, 3, 0xFFFFFFFFFFFFFFFF⟩, [5]⟩, ⟨2, ⟨7, 3, 0⟩, []⟩,
      ⟨3, ⟨7, 3, 0xFFFFFFFFFFFFFFFF⟩, [6, 7]⟩] := by decide +kernel
  refine ⟨hrecords, fun h => ?_⟩
  have hunique := h.unique
  rw [hrecords] at hunique
  exact absurd hunique (by decide +kernel)

end Wal
