import MatchingEngine.Wal.CommitProtocol
import MatchingEngine.Wal.Sessions

/-!
# A reader behind a writer

One writer and one reader are at work on a segment. The bytes that the writer holds back
may reach the file at any time and in any portions, so the file may end inside a record.
A consumer that reads once for every position it has popped sees the records of these
positions.
-/

namespace Wal

open Framing InputStream

/-- What may happen next. -/
inductive TailingAction where
  /-- A call of the writer. -/
  | write (c : WriterCall)
  /-- Bytes held back by the writer reach the file. -/
  | spill (count : ℕ)
  /-- The reader is opened, after a commit. -/
  | openReader
  /-- The reader is called, if a position was popped for it. -/
  | readNext
  deriving DecidableEq

/-- The appends among the actions. -/
def TailingAction.append? : TailingAction → Option Append
  | .write (.append call) => some call
  | _ => none

/-- A writer, a reader once it is opened, and what has happened so far: the records that
`append` was called with, the results of the writer's calls and those of the reader's. -/
structure Tailing where
  writer : WalSegmentWriter
  reader : Option WalSegmentReader := none
  calls : List Append := []
  results : List WriterResult := []
  reads : List (WalReadResult × Option WalRecordView) := []

namespace Tailing

/-- The bytes of the file, as far as they are there. -/
def disk (s : Tailing) : List UInt8 := s.writer.file.entry.bytes?.getD []

/-- A commit was successful. -/
def hasCommit (s : Tailing) : Bool := s.results.any WriterResult.isCommitted

/-- One action. The reader is not opened twice, and it is not called before a position
was popped for the call. -/
def step (s : Tailing) : TailingAction → Tailing
  | .write c =>
    { s with
      writer := (s.writer.call c).2
      calls := s.calls ++ (TailingAction.write c).append?.toList
      results := s.results ++ [(s.writer.call c).1] }
  | .spill count => { s with writer := { s.writer with file := s.writer.file.spill count } }
  | .openReader =>
    if s.hasCommit ∧ s.reader = none then
      { s with reader := some (WalSegmentReader.create s.writer.file.entry) }
    else s
  | .readNext =>
    match s.reader with
    | none => s
    | some reader =>
      if s.reads.length < (poppedPositions s.results).length then
        let read := reader.readNext s.disk
        { s with reader := some read.2.2, reads := s.reads ++ [(read.1, read.2.1)] }
      else s

/-- A writer on a fresh path and no reader. -/
def start (config : WalWriterConfig) (outcomes : List SinkOutcome) : Tailing :=
  { writer := .create config { entry := .absent, outcomes := outcomes } }

/-- Actions in any order. -/
def run (s : Tailing) (actions : List TailingAction) : Tailing := actions.foldl step s

/-- What a call that reads this record returns. -/
def readOf (view : WalRecordView) : WalReadResult × Option WalRecordView :=
  ({ status := .recordRead, error := .none, position := view.header.position }, some view)

/-- What reading these records returns. -/
def readsOf (config : WalWriterConfig) (calls : List Append) :
    List (WalReadResult × Option WalRecordView) :=
  (config.views config.firstSequence calls).map readOf

/-- A reader behind the first records of a segment, whose bytes are in the file. -/
structure Behind (config : WalWriterConfig) (calls : List Append) (disk : List UInt8)
    (reader : WalSegmentReader) : Prop where
  opened : reader.openResult.status = .recordRead
  segment : reader.segmentHeader = config.segmentHeader
  last : reader.lastPosition = lastOf {} (config.views config.firstSequence calls)
  stream : ∃ gcount, reader.file = reading (boundaryAfter calls) gcount
  inside : boundaryAfter calls ≤ disk.length

/-- What all actions keep. -/
structure Follows (config : WalWriterConfig) (opened : WalSegmentWriter) (s : Tailing) :
    Prop where
  protocol : WalSegmentWriter.Protocol opened s.results s.writer
  ready : WalSegmentWriter.Ready config (config.firstSequence + .ofNat s.calls.length)
    (config.segmentBytes s.calls) s.writer
  fits : ∀ call ∈ s.calls, call.Fits
  nowrap : config.firstSequence.toNat + s.calls.length ≤ 2 ^ 64
  count : (appendedPositions s.results).length = s.calls.length
  /-- What was committed is in the file. -/
  visible : s.hasCommit = true →
    boundaryAfter (s.calls.take (publishedPositions s.results).length) ≤ s.disk.length
  credit : s.reads.length ≤ (poppedPositions s.results).length
  reads : s.reads = readsOf config (s.calls.take s.reads.length)
  /-- The reader is behind the records it has read. -/
  reader : ∀ reader, s.reader = some reader →
    s.hasCommit = true ∧ Behind config (s.calls.take s.reads.length) s.disk reader
  unopened : s.reader = none → s.reads = []

variable {config : WalWriterConfig} {opened : WalSegmentWriter} {s : Tailing}

/-- The file holds the first bytes of the segment. -/
theorem Follows.disk_eq (h : Follows config opened s) :
    s.writer.file.entry = .file s.disk ∧
      s.disk = (config.segmentBytes s.calls).take s.disk.length := by
  obtain ⟨written, hentry, hbytes⟩ := h.ready.file.bytes
  have hdisk : s.disk = written := by rw [disk, hentry]; rfl
  rw [hdisk, ← hbytes, List.take_left' rfl]
  exact ⟨hentry, rfl⟩

/-- What was popped was published, and what was published was appended. -/
theorem Follows.lengths (h : Follows config opened s) :
    (poppedPositions s.results).length ≤ (publishedPositions s.results).length ∧
      (publishedPositions s.results).length ≤ s.calls.length := by
  have horder := congrArg List.length h.protocol.order
  have hpublished := congrArg List.length h.protocol.published
  have hcount := h.count
  rw [List.length_append] at hpublished
  rw [h.protocol.published, List.length_append] at horder
  omega

/-- The reader does not mind that the file grows. -/
theorem Behind.grow {calls : List Append} {disk disk' : List UInt8} {reader : WalSegmentReader}
    (h : Behind config calls disk reader) (hle : disk.length ≤ disk'.length) :
    Behind config calls disk' reader :=
  ⟨h.opened, h.segment, h.last, h.stream, h.inside.trans hle⟩

/-- A file that grows gets longer. -/
theorem disk_le {s' : Tailing} (hgrows : s.writer.file.Grows s'.writer.file)
    (hentry : s.writer.file.entry = .file s.disk) : s.disk.length ≤ s'.disk.length := by
  obtain ⟨more, hmore⟩ := hgrows _ hentry
  have hdisk : s'.disk = s.disk ++ more := by
    rw [disk, hmore]
    rfl
  rw [hdisk, List.length_append]
  exact Nat.le_add_right _ _

/-- Bytes that reach the file change nothing else. -/
theorem Follows.spill (h : Follows config opened s) (count : ℕ) :
    Follows config opened (s.step (.spill count)) := by
  have hle : s.disk.length ≤ (s.step (.spill count)).disk.length :=
    disk_le (OutputStream.grows_spill _ _) h.disk_eq.1
  obtain ⟨hstreamId, hepoch, hnext, hconsecutive, horder, hpublished, hlast, hcommitted⟩ :=
    h.protocol
  exact
    { protocol := ⟨hstreamId, hepoch, hnext, hconsecutive, horder, hpublished, hlast, hcommitted⟩
      ready := ⟨h.ready.streamId, h.ready.epoch, h.ready.nextSequence, h.ready.writerError,
        h.ready.file.spill count⟩
      fits := h.fits
      nowrap := h.nowrap
      count := h.count
      visible := fun hcommit => (h.visible hcommit).trans hle
      credit := h.credit
      reads := h.reads
      reader := fun reader hreader =>
        ⟨(h.reader reader hreader).1, (h.reader reader hreader).2.grow hle⟩
      unopened := h.unopened }

/-- Only a commit that succeeds is one. -/
theorem hasCommit_write (s : Tailing) (c : WriterCall) :
    (s.step (.write c)).hasCommit = (s.hasCommit || (s.writer.call c).1.isCommitted) := by
  change (s.results ++ [_]).any WriterResult.isCommitted = _
  rw [List.any_append, List.any_cons, List.any_nil, Bool.or_false]
  rfl

/-- A call of the writer, as far as all calls are alike. -/
theorem Follows.write_of (h : Follows config opened s) (c : WriterCall)
    (hready : WalSegmentWriter.Ready config
      (config.firstSequence + .ofNat (s.step (.write c)).calls.length)
      (config.segmentBytes (s.step (.write c)).calls) (s.writer.call c).2)
    (hfits : ∀ call ∈ (s.step (.write c)).calls, call.Fits)
    (hnowrap : config.firstSequence.toNat + (s.step (.write c)).calls.length ≤ 2 ^ 64)
    (hcount : (appendedPositions (s.step (.write c)).results).length =
      (s.step (.write c)).calls.length)
    (hle : s.disk.length ≤ (s.step (.write c)).disk.length)
    (hvisible : (s.step (.write c)).hasCommit = true →
      boundaryAfter ((s.step (.write c)).calls.take
        (publishedPositions (s.step (.write c)).results).length) ≤
          (s.step (.write c)).disk.length) :
    Follows config opened (s.step (.write c)) := by
  have hread : s.reads.length ≤ s.calls.length := by
    have hlengths := h.lengths
    have hcredit := h.credit
    omega
  have htake : (s.step (.write c)).calls.take s.reads.length = s.calls.take s.reads.length :=
    List.take_append_of_le_length hread
  refine ⟨h.protocol.call c, hready, hfits, hnowrap, hcount, hvisible, ?_, ?_, ?_, h.unopened⟩
  · change _ ≤ (poppedPositions (s.results ++ [_])).length
    rw [poppedPositions_concat, List.length_append]
    exact h.credit.trans (Nat.le_add_right _ _)
  · change s.reads = readsOf config ((s.step (.write c)).calls.take s.reads.length)
    rw [htake]
    exact h.reads
  · intro reader hreader
    obtain ⟨hcommit, hbehind⟩ := h.reader reader hreader
    refine ⟨?_, ?_⟩
    · rw [hasCommit_write, hcommit, Bool.true_or]
    · change Behind config ((s.step (.write c)).calls.take s.reads.length) _ reader
      rw [htake]
      exact hbehind.grow hle

/-- An append puts a record behind those that are there. -/
theorem Follows.append (h : Follows config opened s) {call : Append} (hcall : call.Fits)
    (hnowrap : config.firstSequence.toNat + s.calls.length + 1 ≤ 2 ^ 64) :
    Follows config opened (s.step (.write (.append call))) := by
  obtain ⟨hresult, hready⟩ := h.ready.append call
  have hnext : config.firstSequence + .ofNat s.calls.length + 1 =
      config.firstSequence + .ofNat (s.calls ++ [call]).length := by
    rw [List.length_append, List.length_singleton, UInt64.ofNat_add, UInt64.add_assoc,
      UInt64.ofNat_one]
  rw [WalWriterConfig.appendedBytes_eq hcall, ← WalWriterConfig.segmentBytes_concat, hnext]
    at hready
  have hle : s.disk.length ≤ (s.step (.write (.append call))).disk.length :=
    disk_le (s.writer.grows_append call) h.disk_eq.1
  have happended : (appendedPositions (s.results ++ [.append (s.writer.append call).1])).length =
      (appendedPositions s.results).length + 1 := by
    rw [appendedPositions_concat, hresult, List.length_append]
    rfl
  have hpublished : publishedPositions (s.step (.write (.append call))).results =
      publishedPositions s.results := publishedPositions_concat _ _
  have hcalls : (s.step (.write (.append call))).calls = s.calls ++ [call] := rfl
  refine h.write_of (.append call) hready ?_ ?_ ?_ hle ?_
  · intro c hc
    rcases List.mem_append.mp hc with hc | hc
    · exact h.fits c hc
    · rw [List.mem_singleton.mp hc]
      exact hcall
  · change config.firstSequence.toNat + (s.calls ++ [call]).length ≤ _
    rw [List.length_append, List.length_singleton, ← Nat.add_assoc]
    exact hnowrap
  · change (appendedPositions (s.results ++ [.append (s.writer.append call).1])).length =
      (s.calls ++ [call]).length
    rw [happended, h.count, List.length_append, List.length_singleton]
  · intro hcommit
    have hbefore : s.hasCommit = true := by
      rw [hasCommit_write] at hcommit
      exact (Bool.or_false _).symm.trans hcommit
    rw [hpublished, hcalls, List.take_append_of_le_length h.lengths.2]
    exact (h.visible hbefore).trans hle

/-- A commit brings everything to the file. -/
theorem Follows.commit (h : Follows config opened s) :
    Follows config opened (s.step (.write .commit)) := by
  obtain ⟨hstatus, hready⟩ := h.ready.commit
  have hentry := h.ready.commit_entry
  have hdisk : (s.step (.write .commit)).disk = config.segmentBytes s.calls := by
    change (s.writer.commit.2.file.entry.bytes?.getD []) = _
    rw [hentry]
    rfl
  have happended : appendedPositions (s.results ++ [.commit s.writer.commit.1]) =
      appendedPositions s.results := by
    rw [appendedPositions_concat]
    exact List.append_nil _
  have hpublished : publishedPositions (s.step (.write .commit)).results =
      appendedPositions s.results :=
    (publishedPositions_concat _ _).trans (if_pos (decide_eq_true hstatus))
  have hcalls : (s.step (.write .commit)).calls = s.calls := List.append_nil _
  have hle : s.disk.length ≤ (s.step (.write .commit)).disk.length := by
    rw [hdisk, h.disk_eq.2]
    exact (List.length_take_le' _ _)
  refine h.write_of .commit ?_ ?_ ?_ ?_ hle fun _ => ?_
  · rw [hcalls]
    exact hready
  · rw [hcalls]
    exact h.fits
  · rw [hcalls]
    exact h.nowrap
  · rw [hcalls, ← h.count, ← happended]
    rfl
  · rw [hcalls, hpublished, h.count, List.take_length, hdisk, WalWriterConfig.segmentBytes_length,
      boundaryAfter]

/-- A pop touches neither the file nor the records. -/
theorem Follows.pop (h : Follows config opened s) :
    Follows config opened (s.step (.write .pop)) := by
  obtain ⟨rest, hrest, -⟩ := s.writer.pop_cases
  have hcalls : (s.step (.write .pop)).calls = s.calls := List.append_nil _
  have hdisk : (s.step (.write .pop)).disk = s.disk := by
    change (s.writer.popCommittedPosition.2.file.entry.bytes?.getD []) = _
    rw [hrest]
    rfl
  have happended : appendedPositions (s.results ++ [.pop s.writer.popCommittedPosition.1]) =
      appendedPositions s.results := by
    rw [appendedPositions_concat]
    exact List.append_nil _
  have hpublished : publishedPositions (s.step (.write .pop)).results =
      publishedPositions s.results := publishedPositions_concat _ _
  refine h.write_of .pop ?_ ?_ ?_ ?_ (by rw [hdisk]) fun hcommit => ?_
  · rw [hcalls]
    change WalSegmentWriter.Ready _ _ _ s.writer.popCommittedPosition.2
    rw [hrest]
    exact ⟨h.ready.streamId, h.ready.epoch, h.ready.nextSequence, h.ready.writerError,
      h.ready.file⟩
  · rw [hcalls]
    exact h.fits
  · rw [hcalls]
    exact h.nowrap
  · rw [hcalls, ← h.count, ← happended]
    rfl
  · have hbefore : s.hasCommit = true := by
      rw [hasCommit_write] at hcommit
      exact (Bool.or_false _).symm.trans hcommit
    rw [hcalls, hpublished, hdisk]
    exact h.visible hbefore

/-- The reader is opened on a file whose header is complete. -/
theorem Follows.openReader (h : Follows config opened s) (hvalid : config.Valid) :
    Follows config opened (s.step .openReader) := by
  by_cases hguard : s.hasCommit = true ∧ s.reader = none
  · obtain ⟨hcommit, hnone⟩ := hguard
    have hreads : s.reads = [] := h.unopened hnone
    have hlong : segmentHeaderSize ≤ s.disk.length :=
      (Nat.le_add_right _ _).trans (h.visible hcommit)
    obtain ⟨hentry, hdisk⟩ := h.disk_eq
    have hheader : SegmentHeaderValid s.disk := by
      rw [hdisk]
      exact (WalWriterConfig.segmentHeader_valid hvalid _).take hlong
    have hsegment : segmentHeaderOf s.disk = config.segmentHeader := by
      rw [hdisk, segmentHeaderOf_take hlong, WalWriterConfig.segmentBytes, segmentHeaderOf_append]
    have hstep : s.step .openReader =
        { s with reader := some (WalSegmentReader.create s.writer.file.entry) } :=
      if_pos ⟨hcommit, hnone⟩
    rw [hstep, hentry, WalSegmentReader.create_of_valid hheader, hsegment]
    refine ⟨h.protocol, h.ready, h.fits, h.nowrap, h.count, h.visible, h.credit, h.reads, ?_,
      fun _ => hreads⟩
    intro reader hreader
    cases hreader
    change _ ∧ Behind config (s.calls.take s.reads.length) _ _
    rw [hreads]
    exact ⟨hcommit, rfl, rfl, rfl, ⟨_, rfl⟩, hlong⟩
  · have hstep : s.step .openReader = s := if_neg hguard
    rw [hstep]
    exact h

/-- A record whose frame is completely in the file is read next. -/
theorem Behind.record {earlier : List Append} {call : Append} {later : List Append}
    {disk : List UInt8} {reader : WalSegmentReader} (h : Behind config earlier disk reader)
    (hvalid : config.Valid) (hcall : call.Fits)
    (hwrap : config.firstSequence.toNat + earlier.length < 2 ^ 64)
    (hdisk : disk = (config.segmentBytes (earlier ++ call :: later)).take disk.length)
    (hinside : boundaryAfter (earlier ++ [call]) ≤ disk.length) :
    ∃ reader', Behind config (earlier ++ [call]) disk reader' ∧
      reader.readNext disk =
        ({ status := .recordRead
           error := .none
           position :=
             (config.view (config.firstSequence + .ofNat earlier.length) call).header.position },
          some (config.view (config.firstSequence + .ofNat earlier.length) call), reader') := by
  obtain ⟨gcount, hstream⟩ := h.stream
  rw [boundaryAfter_concat] at hinside
  have hexpected : reader.expectedSequence = config.firstSequence + .ofNat earlier.length := by
    rw [WalSegmentReader.expectedSequence, h.segment, h.last]
    exact WalSegmentWriter.nextSequence_of_last hvalid hwrap.le
  have hfull := @WalWriterConfig.frontAt_frame config call
    (config.firstSequence + .ofNat earlier.length) hcall
    (List.replicate (frameLength call.payload.length - (recordHeaderSize + call.payload.length)) 0
      ++ config.framesBytes (config.firstSequence + .ofNat earlier.length + 1) later)
  have hfront : frontAt reader.segmentHeader reader.expectedSequence
      (disk.drop (boundaryAfter earlier)) =
        .item (config.view (config.firstSequence + .ofNat earlier.length) call)
          (config.firstSequence + .ofNat earlier.length + 1) (frameLength call.payload.length) := by
    have hlength : (config.segmentBytes earlier).length = boundaryAfter earlier :=
      WalWriterConfig.segmentBytes_length _ _
    rw [h.segment, hexpected, hdisk, List.drop_take, WalWriterConfig.segmentBytes_split,
      List.drop_left' hlength]
    refine frontAt_take _ _ _ _ _ _ _ ?_ (by omega)
    rw [WalWriterConfig.frameBytes, List.append_assoc, List.append_assoc]
    exact hfull
  have hstep := WalSegmentReader.readNext_step h.opened (.inl ⟨h.inside, gcount, hstream⟩)
  rw [hfront] at hstep
  generalize reader.readNext disk = outcome at hstep ⊢
  cases hstep with
  | @item _ _ _ stream hpositioned =>
    refine ⟨{ reader with
        file := stream
        lastPosition :=
          (config.view (config.firstSequence + .ofNat earlier.length) call).header.position },
      ⟨h.opened, h.segment, ?_, ?_, ?_⟩, rfl⟩
    · rw [WalWriterConfig.lastOf_views_concat]
      rfl
    · rw [boundaryAfter_concat]
      rcases hpositioned with ⟨-, hfile⟩ | ⟨hpast, -⟩
      · exact hfile
      · exact absurd hinside (Nat.not_le.mpr hpast)
    · rw [boundaryAfter_concat]
      exact hinside

/-- The reader finds the record of the next popped position. -/
theorem Follows.readNext (h : Follows config opened s) (hvalid : config.Valid) :
    Follows config opened (s.step .readNext) := by
  cases hreader : s.reader with
  | none =>
    have hstep : s.step .readNext = s := by
      unfold step
      rw [hreader]
    rw [hstep]
    exact h
  | some reader =>
    by_cases hguard : s.reads.length < (poppedPositions s.results).length
    · obtain ⟨hpopped, hpublished⟩ := h.lengths
      have hindex : s.reads.length < s.calls.length := by omega
      obtain ⟨hcommit, hbehind⟩ := h.reader reader hreader
      have hsplit : s.calls = s.calls.take s.reads.length ++
          s.calls[s.reads.length] :: s.calls.drop (s.reads.length + 1) := by
        rw [List.getElem_cons_drop, List.take_append_drop]
      have htake : s.calls.take (s.reads.length + 1) =
          s.calls.take s.reads.length ++ [s.calls[s.reads.length]] :=
        List.take_succ_eq_append_getElem hindex
      have hlength : (s.calls.take s.reads.length).length = s.reads.length := by
        rw [List.length_take, Nat.min_eq_left hindex.le]
      have hmono : boundaryAfter (s.calls.take (s.reads.length + 1)) ≤
          boundaryAfter (s.calls.take (publishedPositions s.results).length) :=
        boundaryAfter_mono (List.take_prefix_take_left (by omega))
      have hnowrap := h.nowrap
      obtain ⟨reader', hbehind', hread⟩ := hbehind.record hvalid
        (h.fits _ (List.getElem_mem hindex)) (by rw [hlength]; omega)
        (by rw [← hsplit]; exact h.disk_eq.2)
        (by rw [← htake]; exact hmono.trans (h.visible hcommit))
      rw [hlength] at hread
      rw [← htake] at hbehind'
      generalize hview : config.view (config.firstSequence + .ofNat s.reads.length)
        s.calls[s.reads.length] = view at hread
      have hstep : s.step .readNext = { s with
          reader := some reader'
          reads := s.reads ++ [readOf view] } := by
        unfold step
        rw [hreader]
        dsimp only
        rw [if_pos hguard, hread]
        rfl
      have hcount : (s.reads ++ [readOf view]).length = s.reads.length + 1 := List.length_append
      rw [hstep]
      refine ⟨h.protocol, h.ready, h.fits, h.nowrap, h.count, h.visible, ?_, ?_, ?_,
        fun h => absurd h (Option.some_ne_none _)⟩
      · rw [hcount]
        exact hguard
      · dsimp only
        rw [hcount, htake, readsOf, WalWriterConfig.views_append, List.map_append, hlength,
          WalWriterConfig.views, WalWriterConfig.views, hview]
        congr 1
        exact h.reads
      · intro other hother
        cases hother
        refine ⟨hcommit, ?_⟩
        dsimp only
        rw [hcount]
        exact hbehind'
    · have hstep : s.step .readNext = s := by
        unfold step
        rw [hreader]
        exact if_neg hguard
      rw [hstep]
      exact h

/-- A writer on a fresh path follows. -/
theorem follows_start (config : WalWriterConfig) {outcomes : List SinkOutcome}
    (houtcomes : ∀ outcome ∈ outcomes, outcome.fails = false) :
    Follows config (start config outcomes).writer (start config outcomes) where
  protocol := .start
    (WalSegmentWriter.unused_create config { entry := .absent, outcomes := outcomes } [])
  ready := by
    have hready := WalSegmentWriter.ready_create_fresh config (.inl rfl) houtcomes
    rw [← UInt64.add_zero config.firstSequence] at hready
    exact hready
  fits call hcall := absurd hcall List.not_mem_nil
  nowrap := config.firstSequence.toNat_lt.le
  count := rfl
  visible h := absurd h Bool.false_ne_true
  credit := le_rfl
  reads := rfl
  reader reader h := absurd h.symm (Option.some_ne_none _)
  unopened _ := rfl

/-- The records that were appended are those of the appends. -/
theorem calls_step (s : Tailing) (action : TailingAction) :
    (s.step action).calls = s.calls ++ action.append?.toList := by
  cases action with
  | write c => rfl
  | spill count => exact (List.append_nil _).symm
  | openReader =>
    refine Eq.trans ?_ (List.append_nil _).symm
    unfold step
    dsimp only
    split
    · rfl
    · rfl
  | readNext =>
    refine Eq.trans ?_ (List.append_nil _).symm
    unfold step
    dsimp only
    split
    · rfl
    split
    · rfl
    · rfl

/-- Every action keeps this, as long as a record fits and its number does not wrap. -/
theorem Follows.step (h : Follows config opened s) (hvalid : config.Valid)
    {action : TailingAction} (hfits : ∀ call ∈ action.append?.toList, call.Fits)
    (hnowrap : config.firstSequence.toNat + (s.calls ++ action.append?.toList).length ≤ 2 ^ 64) :
    Follows config opened (s.step action) := by
  cases action with
  | write c =>
    cases c with
    | append call =>
      change _ + (s.calls ++ [call]).length ≤ _ at hnowrap
      rw [List.length_append, List.length_singleton, ← Nat.add_assoc] at hnowrap
      exact h.append (hfits call List.mem_cons_self) hnowrap
    | commit => exact h.commit
    | pop => exact h.pop
  | spill count => exact h.spill count
  | openReader => exact h.openReader hvalid
  | readNext => exact h.readNext hvalid

/-- All actions keep this. -/
theorem Follows.run (h : Follows config opened s) (hvalid : config.Valid)
    {actions : List TailingAction}
    (hfits : ∀ call ∈ actions.filterMap TailingAction.append?, call.Fits)
    (hnowrap : config.firstSequence.toNat +
      (s.calls ++ actions.filterMap TailingAction.append?).length ≤ 2 ^ 64) :
    Follows config opened (run s actions) ∧
      (run s actions).calls = s.calls ++ actions.filterMap TailingAction.append? := by
  induction actions generalizing s with
  | nil => exact ⟨h, (List.append_nil _).symm⟩
  | cons action actions ih =>
    have hsplit : (action :: actions).filterMap TailingAction.append? =
        action.append?.toList ++ actions.filterMap TailingAction.append? := by
      rw [List.filterMap_cons]
      cases action.append? with
      | none => rfl
      | some call => rfl
    rw [hsplit, ← List.append_assoc] at hnowrap
    rw [hsplit] at hfits
    have hfirst : config.firstSequence.toNat + (s.calls ++ action.append?.toList).length ≤
        2 ^ 64 := by
      rw [List.length_append] at hnowrap
      omega
    have hstep := h.step hvalid (fun call hc => hfits call (List.mem_append_left _ hc)) hfirst
    rw [← calls_step] at hnowrap
    have hrest := ih hstep (fun call hc => hfits call (List.mem_append_right _ hc)) hnowrap
    rw [calls_step, List.append_assoc, ← hsplit] at hrest
    exact hrest

/-- A record of a segment by its number. -/
theorem views_getElem? (sequence : UInt64) {calls : List Append} {k : ℕ} {call : Append}
    (hcall : calls[k]? = some call) :
    (config.views sequence calls)[k]? = some (config.view (sequence + .ofNat k) call) := by
  induction calls generalizing sequence k with
  | nil => cases hcall
  | cons first calls ih =>
    cases k with
    | zero =>
      cases hcall
      rw [WalWriterConfig.views]
      simp
    | succ k =>
      rw [List.getElem?_cons_succ] at hcall
      rw [WalWriterConfig.views, List.getElem?_cons_succ, ih _ hcall,
        WalWriterConfig.add_one_add_ofNat]

/-- A popped position by its number. -/
theorem Follows.popped_getElem? (h : Follows config opened s)
    (hopened : WalSegmentWriter.Ready config config.firstSequence (config.segmentBytes []) opened)
    {k : ℕ} (hk : k < (poppedPositions s.results).length) :
    (poppedPositions s.results)[k]? =
      some ⟨config.streamId, config.epoch, config.firstSequence + .ofNat k⟩ := by
  obtain ⟨hpopped, hpublished⟩ := h.lengths
  have hcount := h.count
  have hbefore : (poppedPositions s.results)[k]? = (appendedPositions s.results)[k]? := by
    rw [← h.protocol.order, List.append_assoc, List.getElem?_append_left hk]
  rw [hbefore, h.protocol.consecutive, hopened.streamId, hopened.epoch, hopened.nextSequence,
    positionsFrom, List.getElem?_map, List.getElem?_range (by omega)]
  rfl

/-- A read by its number. -/
theorem Follows.reads_getElem? (h : Follows config opened s) {k : ℕ} {call : Append}
    (hk : k < s.reads.length) (hcall : s.calls[k]? = some call) :
    s.reads[k]? = some (readOf (config.view (config.firstSequence + .ofNat k) call)) := by
  have htake : (s.calls.take s.reads.length)[k]? = some call := by
    rw [List.getElem?_take_of_lt hk, hcall]
  rw [h.reads, readsOf, List.getElem?_map, views_getElem? _ htake]
  rfl

/-- A reader behind a writer on a fresh path, in any interleaving and with any portions of
bytes in the file: the k-th read returns the k-th popped position, with the record type
and the payload of the k-th append. -/
theorem reads_follow_pops {config : WalWriterConfig} (hvalid : config.Valid)
    {outcomes : List SinkOutcome} (houtcomes : ∀ outcome ∈ outcomes, outcome.fails = false)
    {actions : List TailingAction}
    (hfits : ∀ call ∈ actions.filterMap TailingAction.append?, call.Fits)
    (hnowrap : config.firstSequence.toNat +
      (actions.filterMap TailingAction.append?).length ≤ 2 ^ 64) :
    let s : Tailing := run (start config outcomes) actions
    s.reads.length ≤ (poppedPositions s.results).length ∧
      ∀ (k : ℕ) (read : WalReadResult × Option WalRecordView), s.reads[k]? = some read →
        ∃ position call view, (poppedPositions s.results)[k]? = some position ∧
          (actions.filterMap TailingAction.append?)[k]? = some call ∧
          read = ({ status := .recordRead, error := .none, position := position }, some view) ∧
          view.header.recordType = call.recordType ∧ view.payload = call.payload := by
  intro s
  obtain ⟨hfollows, hcalls⟩ : Follows config (start config outcomes).writer s ∧
      s.calls = [] ++ actions.filterMap TailingAction.append? :=
    (follows_start config houtcomes).run hvalid hfits hnowrap
  have hcredit := hfollows.credit
  obtain ⟨hpopped, hpublished⟩ := hfollows.lengths
  refine ⟨hcredit, fun k read hread => ?_⟩
  rw [List.nil_append] at hcalls
  rw [← hcalls]
  have hk : k < s.reads.length := (List.getElem?_eq_some_iff.mp hread).1
  have hcall : s.calls[k]? = some s.calls[k] := List.getElem?_eq_getElem (by omega)
  have hposition := hfollows.popped_getElem?
    (WalSegmentWriter.ready_create_fresh config (.inl rfl) houtcomes) (k := k) (by omega)
  refine ⟨_, _, config.view (config.firstSequence + .ofNat k) s.calls[k], hposition, hcall,
    ?_, rfl, rfl⟩
  rw [hfollows.reads_getElem? hk hcall] at hread
  exact (Option.some.inj hread).symm

/-- Two records, of which the second is partly in the file when the reader is called for
the first one. -/
theorem reads_follow_pops_torn :
    let config : WalWriterConfig := { streamId := 7, epoch := 3 }
    let actions : List TailingAction :=
      [.write (.append { recordType := 1, payload := [5] }), .write .commit, .openReader,
        .write (.append { recordType := 2, payload := [] }), .spill 9, .write .pop, .readNext]
    let s : Tailing := run (start config []) actions
    s.disk.length = 113 ∧ s.reads.length = 1 ∧
      s.reads.length ≤ (poppedPositions s.results).length := by
  intro config actions s
  refine ⟨by decide +kernel, by decide +kernel, ?_⟩
  exact (@reads_follow_pops config ⟨by decide, by decide, by decide⟩ [] (by simp) actions
    (by decide) (by decide)).1

end Tailing

end Wal
