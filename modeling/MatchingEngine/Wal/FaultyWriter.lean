import MatchingEngine.Wal.Positions
import MatchingEngine.Wal.TornSegment

/-!
# Writing on a device that fails

A writer that was opened behind some records stands for the bytes of these records, of
those it was called with and of at most one that it has failed to append: whatever the
device does, the bytes in the file are the first of these. What a commit has published is
among them.
-/

namespace Wal

open Framing

/-- The records that `append` was called with. -/
def appendsOf (calls : List WriterCall) : List Append := calls.filterMap WriterCall.append?

theorem appendsOf_concat (calls : List WriterCall) (c : WriterCall) :
    appendsOf (calls ++ [c]) = appendsOf calls ++ c.append?.toList := by
  rw [appendsOf, List.filterMap_append]
  cases h : c.append? <;> simp [appendsOf, h]

/-- What was published was appended. -/
theorem published_isPrefix (results : List WriterResult) :
    publishedPositions results <+: appendedPositions results :=
  (List.rdropWhile_prefix _ _).filterMap _

namespace WalSegmentWriter

/-- A writer that was opened behind the records `before` and has then been called to append
others, on a device that fails as it likes. -/
structure Underway (config : WalWriterConfig) (before : List Append) (opened : WalSegmentWriter)
    (appends : List Append) (results : List WriterResult) (writer : WalSegmentWriter) : Prop where
  protocol : Protocol opened results writer
  streamId : opened.streamId = config.streamId
  epoch : opened.epoch = config.epoch
  nextSequence : opened.nextSequence = config.firstSequence + .ofNat before.length
  count : (appendedPositions results).length ≤ appends.length
  /-- Without an error everything was appended. -/
  running : writer.writerError = .none → (appendedPositions results).length = appends.length
  stopped : writer.writerError ≠ .none → writer.file.failed = true
  /-- At most one record was attempted in vain. -/
  file : writer.file.Intends (config.segmentBytes
    (before ++ appends.take ((appendedPositions results).length + 1)))
  /-- What was committed is in the file. -/
  visible : ∀ bytes, writer.file.entry = .file bytes →
    WalWriterConfig.framesLength (before ++ appends.take (publishedPositions results).length) ≤
      bytes.length - segmentHeaderSize

variable {config : WalWriterConfig} {before appends : List Append}
  {opened writer : WalSegmentWriter} {results : List WriterResult}

/-- The records before the failure do not change when others are asked for. -/
theorem Underway.take_published (h : Underway config before opened appends results writer)
    (more : List Append) :
    (appends ++ more).take (publishedPositions results).length =
      appends.take (publishedPositions results).length :=
  List.take_append_of_le_length ((published_isPrefix results).length_le.trans h.count)

/-- A file that grows keeps what was committed. -/
theorem Underway.visible_of_grows (h : Underway config before opened appends results writer)
    {file : OutputStream} (hgrows : writer.file.Grows file) {bytes : List UInt8}
    (hentry : file.entry = .file bytes) :
    WalWriterConfig.framesLength (before ++ appends.take (publishedPositions results).length) ≤
      bytes.length - segmentHeaderSize := by
  obtain ⟨written, hwritten, -⟩ := h.file.written
  obtain ⟨more, hmore⟩ := hgrows written hwritten
  have hvisible := h.visible written hwritten
  rw [hmore] at hentry
  cases hentry
  rw [List.length_append]
  omega

/-- A call that appends and commits nothing. -/
theorem Underway.unanswered (h : Underway config before opened appends results writer)
    {result : WriterResult} {after : WalSegmentWriter} (more : List Append)
    (hprotocol : Protocol opened (results ++ [result]) after)
    (happended : result.appended? = none) (hcommitted : result.isCommitted = false)
    (hgrows : writer.file.Grows after.file)
    (hrunning : after.writerError = .none → writer.writerError = .none ∧ more = [])
    (hstopped : after.writerError ≠ .none → after.file.failed = true)
    (hfile : after.file.Intends (config.segmentBytes
      (before ++ (appends ++ more).take ((appendedPositions results).length + 1)))) :
    Underway config before opened (appends ++ more) (results ++ [result]) after := by
  have happended' : appendedPositions (results ++ [result]) = appendedPositions results := by
    rw [appendedPositions_concat, happended, Option.toList_none, List.append_nil]
  have hpublished : publishedPositions (results ++ [result]) = publishedPositions results := by
    rw [publishedPositions_concat, hcommitted, if_neg Bool.false_ne_true]
  refine ⟨hprotocol, h.streamId, h.epoch, h.nextSequence, ?_, fun hnone => ?_, hstopped, ?_,
    fun bytes hentry => ?_⟩
  · rw [happended', List.length_append]
    exact h.count.trans (Nat.le_add_right _ _)
  · obtain ⟨hbefore, rfl⟩ := hrunning hnone
    rw [happended', List.append_nil]
    exact h.running hbefore
  · rw [happended']
    exact hfile
  · rw [hpublished, h.take_published]
    exact h.visible_of_grows hgrows hentry

/-- A file that has failed was to get more. -/
theorem intends_take {file : OutputStream} {count : ℕ} (more : List Append)
    (h : file.Intends (config.segmentBytes (before ++ appends.take count)))
    (hfailed : file.failed = true) :
    file.Intends (config.segmentBytes (before ++ (appends ++ more).take count)) := by
  rw [List.take_append, ← List.append_assoc, WalWriterConfig.segmentBytes_append]
  exact h.extend hfailed _

/-- A call of a writer that has an error changes nothing but its queue. -/
theorem Underway.call_of_error (h : Underway config before opened appends results writer)
    (herror : writer.writerError ≠ .none) (c : WriterCall) :
    Underway config before opened (appends ++ c.append?.toList) (results ++ [(writer.call c).1])
      (writer.call c).2 := by
  obtain ⟨hsame, hfile, happended, hresult⟩ := WalSegmentWriter.call_of_error herror c
  have hcommitted : (writer.call c).1.isCommitted = false := by
    cases c with
    | append call => rfl
    | pop => rfl
    | commit =>
      have hfailed := hresult (by decide)
      change WriterResult.error? (.commit writer.commit.1) = _ at hfailed
      change decide (writer.commit.1.status = .committed) = false
      rw [decide_eq_false_iff_not]
      intro hstatus
      rw [WriterResult.error?, if_pos hstatus] at hfailed
      cases hfailed
  refine h.unanswered _ (h.protocol.call c) happended hcommitted (hfile ▸ .refl _)
    (fun hnone => absurd (hsame.symm.trans hnone) herror) (fun _ => ?_) ?_
  · rw [hfile]
    exact h.stopped herror
  · rw [hfile]
    exact intends_take _ h.file (h.stopped herror)

/-- The stream after the writes of a record. -/
def recordFile (writer : WalSegmentWriter) (header : WalRecordHeader) (call : Append) :
    OutputStream :=
  let file := writer.file.write header.toBytes
  let file := if call.payload ≠ [] then file.write call.payload else file
  let padding := paddingFor (.ofNat recordHeaderSize + .ofNat call.payload.length)
    defaultRecordAlignment
  if padding ≠ 0 then file.write (List.replicate padding.toNat 0) else file

/-- A record that is written leaves its stream, and an error if the stream has failed. -/
theorem writeRecord_file (writer : WalSegmentWriter) (call : Append) :
    let file := writer.recordFile (writer.makeHeader call writer.nextSequence) call
    (writer.writeRecord call).2.file = file ∧
      (file.failed = false → (writer.writeRecord call).2.writerError = writer.writerError) := by
  intro file
  unfold writeRecord
  change WalSegmentWriter.file (Prod.snd (if file.failed = true then _ else _)) = file ∧ (_ →
    WalSegmentWriter.writerError (Prod.snd (if file.failed = true then _ else _)) = _)
  split
  next hfailed =>
    rw [failWriter_file]
    exact ⟨rfl, fun hok => absurd (hok.symm.trans hfailed) Bool.false_ne_true⟩
  · exact ⟨rfl, fun _ => rfl⟩

/-- The stream after the writes of a record was to get the frame of the record. -/
theorem intends_recordFile {bytes : List UInt8} (h : writer.file.Intends bytes)
    (sequence : UInt64) {call : Append} (hfits : call.Fits) :
    (writer.recordFile (config.recordHeader sequence call) call).Intends
      (bytes ++ config.frameBytes sequence call) := by
  have hwritten := ((h.write (config.recordHeader sequence call).toBytes).write_if
    call.payload not_not.mp).write_if
      (List.replicate (paddingFor (.ofNat recordHeaderSize + .ofNat call.payload.length)
        defaultRecordAlignment).toNat 0)
      (p := paddingFor (.ofNat recordHeaderSize + .ofNat call.payload.length)
        defaultRecordAlignment ≠ 0) fun hzero => by rw [not_not.mp hzero]; rfl
  rw [List.append_assoc, List.append_assoc] at hwritten
  rw [← WalWriterConfig.appendedBytes_eq hfits]
  exact hwritten

/-- What `append` means for the file of a writer without an error. -/
theorem intends_append {calls : List Append} (hstream : writer.streamId = config.streamId)
    (hepoch : writer.epoch = config.epoch)
    (hnext : writer.nextSequence = config.firstSequence + .ofNat calls.length)
    (h : writer.file.Intends (config.segmentBytes calls)) {call : Append} (hfits : call.Fits)
    (hnone : writer.writerError = .none) :
    (writer.append call).2.file.Intends (config.segmentBytes (calls ++ [call])) ∧
      ((writer.append call).2.writerError ≠ .none →
        (writer.append call).2.file.failed = true) := by
  rw [WalWriterConfig.segmentBytes_concat]
  unfold WalSegmentWriter.append
  rw [if_neg (not_not.mpr hnone)]
  by_cases hfailed : writer.file.failed = true
  · rw [if_pos hfailed]
    dsimp only
    rw [failWriter_file]
    exact ⟨h.extend hfailed _, fun _ => hfailed⟩
  · obtain ⟨hfile, herror⟩ := writer.writeRecord_file call
    rw [makeHeader_eq hstream hepoch, hnext] at hfile herror
    rw [if_neg hfailed, hfile]
    refine ⟨intends_recordFile h _ hfits, fun hne => ?_⟩
    by_contra hok
    exact hne ((herror (by simpa using hok)).trans hnone)

/-- An append of a writer without an error. -/
theorem Underway.append (h : Underway config before opened appends results writer)
    (hnone : writer.writerError = .none) {call : Append} (hfits : call.Fits) :
    Underway config before opened (appends ++ [call])
      (results ++ [.append (writer.append call).1]) (writer.append call).2 := by
  have hcount := h.running hnone
  have hall : appends.take ((appendedPositions results).length + 1) = appends :=
    List.take_of_length_le (by omega)
  have hnext : writer.nextSequence =
      config.firstSequence + .ofNat (before ++ appends).length := by
    rw [h.protocol.nextSequence, h.nextSequence, hcount, List.length_append, UInt64.ofNat_add,
      UInt64.add_assoc]
  have hbefore := h.file
  rw [hall] at hbefore
  obtain ⟨hfile, hstopped⟩ := intends_append (h.protocol.streamId.trans h.streamId)
    (h.protocol.epoch.trans h.epoch) hnext hbefore hfits hnone
  rw [List.append_assoc] at hfile
  have hprotocol := h.protocol.call (.append call)
  have hgrows := writer.grows_append call
  rcases writer.append_cases call with ⟨error, hresult, hfails⟩ | ⟨-, file, heq⟩
  · have happended : (WriterResult.append (writer.append call).1).appended? = none := by
      rw [hresult]
      rfl
    refine h.unanswered _ hprotocol happended rfl hgrows
      (fun hok => absurd (hfails.writerError.symm.trans hok) hfails.error_ne) hstopped ?_
    rwa [List.take_of_length_le (by rw [List.length_append, List.length_singleton]; omega)]
  · have happended : (appendedPositions (results ++ [.append (writer.append call).1])).length =
        (appendedPositions results).length + 1 := by
      rw [appendedPositions_concat, heq, List.length_append]
      rfl
    have hpublished : publishedPositions (results ++ [.append (writer.append call).1]) =
        publishedPositions results := publishedPositions_concat _ _
    refine ⟨hprotocol, h.streamId, h.epoch, h.nextSequence, ?_, fun _ => ?_, hstopped, ?_,
      fun bytes hentry => ?_⟩
    · rw [happended, List.length_append, List.length_singleton]
      omega
    · rw [happended, List.length_append, List.length_singleton, hcount]
    · rwa [happended, List.take_of_length_le
        (by rw [List.length_append, List.length_singleton]; omega)]
    · rw [hpublished, h.take_published]
      exact h.visible_of_grows hgrows hentry

/-- What `commit` means for the file of a writer without an error. -/
theorem intends_commit {bytes : List UInt8} (h : writer.file.Intends bytes)
    (hnone : writer.writerError = .none) :
    writer.commit.2.file.Intends bytes ∧
      (writer.commit.2.writerError ≠ .none → writer.commit.2.file.failed = true) ∧
      (writer.commit.1.status = .committed → writer.commit.2.file.entry = .file bytes) := by
  obtain ⟨hflush, hentry⟩ := h.flush
  unfold WalSegmentWriter.commit
  rw [if_neg (not_not.mpr hnone)]
  dsimp only
  split
  next hfailed =>
    rw [failWriter_file]
    exact ⟨hflush, fun _ => hfailed, fun hstatus => WalCommitStatus.noConfusion hstatus⟩
  next hok => exact ⟨hflush, fun herror => absurd hnone herror,
    fun _ => hentry (by simpa using hok)⟩

/-- A commit of a writer without an error. -/
theorem Underway.commit (h : Underway config before opened appends results writer)
    (hnone : writer.writerError = .none) :
    Underway config before opened appends (results ++ [.commit writer.commit.1])
      writer.commit.2 := by
  have hcount := h.running hnone
  obtain ⟨hfile, hstopped, hentry⟩ := intends_commit h.file hnone
  have hprotocol := h.protocol.call .commit
  have hgrows := writer.grows_commit
  rcases writer.commit_cases with ⟨-, error, hresult, hfails⟩ | ⟨-, file, heq⟩
  · have hnothing : (WriterResult.commit writer.commit.1).isCommitted = false := by
      rw [hresult]
      rfl
    have hunanswered := h.unanswered [] hprotocol rfl hnothing hgrows
      (fun hok => absurd (hfails.writerError.symm.trans hok) hfails.error_ne) hstopped
      (by rwa [List.append_nil])
    rwa [List.append_nil] at hunanswered
  · have hstatus : writer.commit.1.status = .committed := by rw [heq]
    have happended : appendedPositions (results ++ [.commit writer.commit.1]) =
        appendedPositions results := by
      rw [appendedPositions_concat]
      exact List.append_nil _
    have hpublished : publishedPositions (results ++ [.commit writer.commit.1]) =
        appendedPositions results :=
      (publishedPositions_concat _ _).trans (if_pos (decide_eq_true hstatus))
    refine ⟨hprotocol, h.streamId, h.epoch, h.nextSequence, ?_, fun _ => ?_, hstopped, ?_,
      fun bytes hbytes => ?_⟩
    · rw [happended]
      exact h.count
    · rw [happended]
      exact hcount
    · rw [happended]
      exact hfile
    · rw [hentry hstatus] at hbytes
      cases hbytes
      rw [hpublished, hcount, List.take_of_length_le (Nat.le_succ _), List.take_length,
        WalWriterConfig.segmentBytes_length]
      omega

/-- A pop changes nothing but the queue. -/
theorem Underway.pop (h : Underway config before opened appends results writer)
    (hnone : writer.writerError = .none) :
    Underway config before opened appends (results ++ [.pop writer.popCommittedPosition.1])
      writer.popCommittedPosition.2 := by
  obtain ⟨rest, hrest, -⟩ := writer.pop_cases
  have hprotocol := h.protocol.call .pop
  change Protocol _ _ writer.popCommittedPosition.2 at hprotocol
  rw [hrest] at hprotocol ⊢
  have hunanswered := h.unanswered [] hprotocol rfl rfl (.refl _)
    (fun _ => ⟨hnone, rfl⟩) (fun herror => absurd hnone herror)
    (by rw [List.append_nil]; exact h.file)
  rwa [List.append_nil] at hunanswered

/-- Bytes that are held back reach the file. -/
theorem Underway.spill (h : Underway config before opened appends results writer) (count : ℕ) :
    Underway config before opened appends results
      { writer with file := writer.file.spill count } := by
  obtain ⟨hstreamId, hepoch, hnext, hconsecutive, horder, hpublished, hlast, hcommitted⟩ :=
    h.protocol
  exact ⟨⟨hstreamId, hepoch, hnext, hconsecutive, horder, hpublished, hlast, hcommitted⟩,
    h.streamId, h.epoch, h.nextSequence, h.count, h.running, h.stopped, h.file.spill count,
    fun bytes hentry => h.visible_of_grows (OutputStream.grows_spill _ count) hentry⟩

/-- Every call keeps a writer underway. -/
theorem Underway.call (h : Underway config before opened appends results writer) {c : WriterCall}
    (hfits : ∀ call ∈ c.append?.toList, call.Fits) :
    Underway config before opened (appends ++ c.append?.toList) (results ++ [(writer.call c).1])
      (writer.call c).2 := by
  by_cases herror : writer.writerError = .none
  · cases c with
    | append call => exact h.append herror (hfits call List.mem_cons_self)
    | commit =>
      rw [show (WriterCall.commit).append?.toList = [] from rfl, List.append_nil]
      exact h.commit herror
    | pop =>
      rw [show (WriterCall.pop).append?.toList = [] from rfl, List.append_nil]
      exact h.pop herror
  · exact h.call_of_error herror c

/-- Every run of calls keeps a writer underway. -/
theorem Underway.run (h : Underway config before opened [] [] opened) {calls : List WriterCall}
    (hfits : ∀ call ∈ appendsOf calls, call.Fits) :
    Underway config before opened (appendsOf calls) (machine.run opened calls).1
      (machine.run opened calls).2 := by
  induction calls using List.reverseRecOn with
  | nil => exact h
  | append_singleton calls c ih =>
    rw [appendsOf_concat] at hfits ⊢
    rw [machine.run_concat]
    exact (ih fun call hcall => hfits call (List.mem_append_left _ hcall)).call
      fun call hcall => hfits call (List.mem_append_right _ hcall)

/-- What a writer leaves in the file, whether it goes out of scope or its process dies: first
bytes of the segment it stands for, and with them everything that was committed. -/
theorem Underway.leaves (h : Underway config before opened appends results writer)
    (killed : Bool) :
    ∃ bytes, (if killed then writer.file.entry else writer.destroy) = .file bytes ∧
      bytes <+: config.segmentBytes
        (before ++ appends.take ((appendedPositions results).length + 1)) ∧
      WalWriterConfig.framesLength (before ++ appends.take (publishedPositions results).length) ≤
        bytes.length - segmentHeaderSize := by
  obtain ⟨written, hwritten, hprefix⟩ := h.file.written
  cases killed with
  | true =>
    exact ⟨written, hwritten, (List.prefix_append _ _).trans hprefix, h.visible written hwritten⟩
  | false =>
    have hdestroy : ∃ bytes, writer.destroy = .file bytes ∧ bytes <+: config.segmentBytes
        (before ++ appends.take ((appendedPositions results).length + 1)) := by
      unfold destroy
      split
      · exact h.file.flush.1.close
      · exact h.file.close
    obtain ⟨bytes, hentry, hbytes⟩ := hdestroy
    obtain ⟨more, hmore⟩ := destroy_of_file hwritten
    have hlength : bytes = written ++ more := FileEntry.file.inj (hentry.symm.trans hmore)
    have hvisible := h.visible written hwritten
    refine ⟨bytes, hentry, hbytes, ?_⟩
    rw [hlength, List.length_append]
    omega

end WalSegmentWriter

end Wal
