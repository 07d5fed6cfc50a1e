import Mathlib.Data.List.DropRight
import MatchingEngine.Library.Machine
import MatchingEngine.Wal.SegmentWriter

/-!
# The commit protocol of the writer

A writer is driven by calls of `append`, `commit` and `pop_committed_position` in any
order, over a stream that may fail at any operation. A call does one of a few things,
and `Protocol` is what every run of calls keeps: the positions handed out are
consecutive, and each of them is popped, committed or pending, in this order.
-/

namespace Wal

/-- The calls of `WalSegmentWriter` that a run is made of. -/
inductive WriterCall where
  | append (call : Append)
  | commit
  | pop
  deriving DecidableEq

/-- What a call returns. -/
inductive WriterResult where
  | append (result : WalAppendResult)
  | commit (result : WalCommitResult)
  | pop (position : Option WalPosition)
  deriving DecidableEq

namespace WriterResult

/-- The error of a failed append or commit. -/
def error? : WriterResult → Option WalError
  | .append result => if result.status = .appended then none else some result.error
  | .commit result => if result.status = .committed then none else some result.error
  | .pop _ => none

/-- The position of a successful append. -/
def appended? : WriterResult → Option WalPosition
  | .append result => if result.status = .appended then some result.position else none
  | _ => none

/-- The position that was popped. -/
def popped? : WriterResult → Option WalPosition
  | .pop position => position
  | _ => none

/-- The result of a successful commit. -/
def isCommitted : WriterResult → Bool
  | .commit result => decide (result.status = .committed)
  | _ => false

end WriterResult

/-- The positions of the successful appends. -/
def appendedPositions (results : List WriterResult) : List WalPosition :=
  results.filterMap WriterResult.appended?

/-- The positions that were popped. -/
def poppedPositions (results : List WriterResult) : List WalPosition :=
  results.filterMap WriterResult.popped?

/-- The positions that were appended before the last successful commit. -/
def publishedPositions (results : List WriterResult) : List WalPosition :=
  appendedPositions (results.rdropWhile fun result => !result.isCommitted)

/-- Consecutive positions of a stream. -/
def positionsFrom (streamId epoch sequence : UInt64) (count : ℕ) : List WalPosition :=
  (List.range count).map fun i => ⟨streamId, epoch, sequence + .ofNat i⟩

theorem positionsFrom_succ (streamId epoch sequence : UInt64) (count : ℕ) :
    positionsFrom streamId epoch sequence (count + 1) =
      positionsFrom streamId epoch sequence count ++
        [⟨streamId, epoch, sequence + .ofNat count⟩] := by
  rw [positionsFrom, List.range_succ, List.map_append, List.map_singleton]
  rfl

section Concat

variable (results : List WriterResult) (result : WriterResult)

theorem appendedPositions_concat :
    appendedPositions (results ++ [result]) =
      appendedPositions results ++ result.appended?.toList := by
  rw [appendedPositions, List.filterMap_append]
  cases h : result.appended? <;> simp [appendedPositions, h]

theorem poppedPositions_concat :
    poppedPositions (results ++ [result]) = poppedPositions results ++ result.popped?.toList := by
  rw [poppedPositions, List.filterMap_append]
  cases h : result.popped? <;> simp [poppedPositions, h]

/-- A successful commit publishes everything appended so far. -/
theorem publishedPositions_concat :
    publishedPositions (results ++ [result]) =
      if result.isCommitted then appendedPositions results else publishedPositions results := by
  rw [publishedPositions, List.rdropWhile_concat]
  cases result with
  | append result => rfl
  | pop position => rfl
  | commit result =>
    by_cases hcommitted : result.status = .committed
    · have h : (WriterResult.commit result).isCommitted = true := decide_eq_true hcommitted
      simp only [h, Bool.not_true, Bool.false_eq_true, if_false, if_true, appendedPositions_concat]
      simp [WriterResult.appended?]
    · have h : (WriterResult.commit result).isCommitted = false := decide_eq_false hcommitted
      simp only [h, Bool.not_false, Bool.false_eq_true, if_false, if_true]
      rfl

end Concat

namespace WalSegmentWriter

/-- One call of a run. -/
def call (writer : WalSegmentWriter) : WriterCall → WriterResult × WalSegmentWriter
  | .append call => (.append (writer.append call).1, (writer.append call).2)
  | .commit => (.commit writer.commit.1, writer.commit.2)
  | .pop => (.pop writer.popCommittedPosition.1, writer.popCommittedPosition.2)

/-- The writer as a machine that answers every call with one result. -/
def machine : Machine WalSegmentWriter WriterCall WriterResult where
  step writer c := ([(writer.call c).1], (writer.call c).2)

/-! ## What a call can do -/

/-- A call failed with this error: apart from the stream, the writer is unchanged and
the error stays. -/
structure Fails (writer after : WalSegmentWriter) (error : WalError) : Prop where
  error_ne : error ≠ .none
  writerError : after.writerError = error
  first : writer.writerError ≠ .none → writer.writerError = error
  unchanged : { after with file := writer.file, writerError := writer.writerError } = writer

theorem Fails.refl {writer : WalSegmentWriter} (h : writer.writerError ≠ .none) :
    Fails writer writer writer.writerError := ⟨h, rfl, fun _ => rfl, rfl⟩

/-- The first error is kept. -/
theorem fails_failWriter {writer : WalSegmentWriter} (h : writer.writerError = .none)
    (file : OutputStream) {error : WalError} (herror : error ≠ .none) :
    Fails writer ({ writer with file := file }.failWriter error) error := by
  have hfail : { writer with file := file }.failWriter error =
      { writer with file := file, writerError := error } := if_pos h
  rw [hfail]
  exact ⟨herror, rfl, fun hne => absurd h hne, rfl⟩

/-- The positions, queues and numbers of a writer after a failed call. -/
theorem Fails.kept {writer after : WalSegmentWriter} {error : WalError}
    (h : Fails writer after error) :
    after.streamId = writer.streamId ∧ after.epoch = writer.epoch ∧
      after.nextSequence = writer.nextSequence ∧ after.lastPosition = writer.lastPosition ∧
      after.lastCommittedPosition = writer.lastCommittedPosition ∧
      after.pendingPositions = writer.pendingPositions ∧
      after.committedPositions = writer.committedPositions := by
  rw [← h.unchanged]
  exact ⟨rfl, rfl, rfl, rfl, rfl, rfl, rfl⟩

/-- The position that the next append hands out. -/
def nextPosition (writer : WalSegmentWriter) : WalPosition :=
  ⟨writer.streamId, writer.epoch, writer.nextSequence⟩

/-- All that matters of the file after the three writes is whether one has failed. -/
theorem exists_writeRecord (writer : WalSegmentWriter) (call : Append) :
    ∃ file : OutputStream, writer.writeRecord call =
      if file.failed then
        ({ status := .failed, error := .cannotWriteFile, position := writer.lastPosition },
          { writer with file := file }.failWriter .cannotWriteFile)
      else
        ({ status := .appended, error := .none, position := writer.nextPosition },
          { writer with
            file := file
            lastPosition := writer.nextPosition
            nextSequence := writer.nextSequence + 1
            pendingPositions := writer.pendingPositions ++ [writer.nextPosition] }) :=
  ⟨_, rfl⟩

/-- What a call of `append` can do. -/
theorem append_cases (writer : WalSegmentWriter) (call : Append) :
    (∃ error, (writer.append call).1 =
        { status := .failed, error := error, position := writer.lastPosition } ∧
        Fails writer (writer.append call).2 error) ∨
      writer.writerError = .none ∧ ∃ file, writer.append call =
        ({ status := .appended, error := .none, position := writer.nextPosition },
          { writer with
            file := file
            lastPosition := writer.nextPosition
            nextSequence := writer.nextSequence + 1
            pendingPositions := writer.pendingPositions ++ [writer.nextPosition] }) := by
  unfold append
  by_cases herror : writer.writerError = .none
  · rw [if_neg (not_not.mpr herror)]
    by_cases hfile : writer.file.failed = true
    · rw [if_pos hfile]
      exact .inl ⟨.cannotWriteFile, rfl, fails_failWriter herror writer.file (by decide)⟩
    · rw [if_neg hfile]
      obtain ⟨file, hwrite⟩ := writer.exists_writeRecord call
      rw [hwrite]
      by_cases hfailed : file.failed = true
      · rw [if_pos hfailed]
        exact .inl ⟨.cannotWriteFile, rfl, fails_failWriter herror file (by decide)⟩
      · rw [if_neg hfailed]
        exact .inr ⟨herror, file, rfl⟩
  · rw [if_pos herror]
    exact .inl ⟨_, rfl, .refl herror⟩

/-- The next commit is going to fail. -/
def CommitFails (writer : WalSegmentWriter) : Prop :=
  writer.writerError ≠ .none ∨ writer.file.flush.failed = true

/-- What a call of `commit` can do. -/
theorem commit_cases (writer : WalSegmentWriter) :
    (writer.CommitFails ∧ ∃ error, writer.commit.1 =
        { status := .failed, error := error, committedUpTo := writer.lastPosition } ∧
        Fails writer writer.commit.2 error) ∨
      ¬ writer.CommitFails ∧ ∃ file, writer.commit =
        ({ status := .committed
           error := .none
           committedUpTo :=
             writer.pendingPositions.getLastD writer.lastCommittedPosition },
          { writer with
            file := file
            committedPositions := writer.committedPositions ++ writer.pendingPositions
            lastCommittedPosition :=
              writer.pendingPositions.getLastD writer.lastCommittedPosition
            pendingPositions := [] }) := by
  unfold commit CommitFails
  by_cases herror : writer.writerError = .none
  · rw [if_neg (not_not.mpr herror)]
    dsimp only
    by_cases hflush : writer.file.flush.failed = true
    · rw [if_pos hflush]
      exact .inl ⟨.inr hflush, .cannotFlushFile, rfl, fails_failWriter herror _ (by decide)⟩
    · rw [if_neg hflush]
      exact .inr ⟨fun h => h.elim (fun h => h herror) hflush, _, rfl⟩
  · rw [if_pos herror]
    exact .inl ⟨.inl herror, _, rfl, .refl herror⟩

/-- What a call of `pop_committed_position` can do. -/
theorem pop_cases (writer : WalSegmentWriter) :
    ∃ rest, writer.popCommittedPosition.2 = { writer with committedPositions := rest } ∧
      writer.popCommittedPosition.1.toList ++ rest = writer.committedPositions := by
  unfold popCommittedPosition
  split
  · exact ⟨writer.committedPositions, rfl, rfl⟩
  next position rest hqueue => exact ⟨rest, rfl, hqueue.symm⟩

/-- A call that fails leaves everything but the stream as it was. -/
theorem call_fails {writer : WalSegmentWriter} {c : WriterCall} {error : WalError}
    (herror : (writer.call c).1.error? = some error) :
    Fails writer (writer.call c).2 error ∧ (writer.call c).1.appended? = none := by
  cases c with
  | append call =>
    rcases writer.append_cases call with ⟨error', hresult, hfails⟩ | ⟨-, file, heq⟩
    · change (WriterResult.append (writer.append call).1).error? = some error at herror
      rw [hresult] at herror
      cases herror
      refine ⟨hfails, ?_⟩
      change (WriterResult.append (writer.append call).1).appended? = none
      rw [hresult]
      rfl
    · change (WriterResult.append (writer.append call).1).error? = some error at herror
      rw [heq] at herror
      cases herror
  | commit =>
    rcases writer.commit_cases with ⟨-, error', hresult, hfails⟩ | ⟨-, file, heq⟩
    · change (WriterResult.commit writer.commit.1).error? = some error at herror
      rw [hresult] at herror
      cases herror
      exact ⟨hfails, rfl⟩
    · change (WriterResult.commit writer.commit.1).error? = some error at herror
      rw [heq] at herror
      cases herror
  | pop => cases herror

/-- A writer in the error state refuses every append and commit and stays in it. Its file
is not touched. -/
theorem call_of_error {writer : WalSegmentWriter} (herror : writer.writerError ≠ .none)
    (c : WriterCall) :
    (writer.call c).2.writerError = writer.writerError ∧
      (writer.call c).2.file = writer.file ∧ (writer.call c).1.appended? = none ∧
      (c ≠ .pop → (writer.call c).1.error? = some writer.writerError) := by
  cases c with
  | append record =>
    unfold WalSegmentWriter.call append
    dsimp only
    rw [if_pos herror]
    exact ⟨rfl, rfl, rfl, fun _ => rfl⟩
  | commit =>
    unfold WalSegmentWriter.call commit
    dsimp only
    rw [if_pos herror]
    exact ⟨rfl, rfl, rfl, fun _ => rfl⟩
  | pop =>
    obtain ⟨rest, hrest, -⟩ := writer.pop_cases
    unfold WalSegmentWriter.call
    dsimp only
    rw [hrest]
    exact ⟨rfl, rfl, rfl, fun h => absurd rfl h⟩

/-- A failure is noted in the writer alone. -/
theorem failWriter_file (error : WalError) (writer : WalSegmentWriter) :
    (writer.failWriter error).file = writer.file := by
  unfold failWriter
  split
  · rfl
  · rfl

/-- An append takes no bytes out of the file. -/
theorem grows_append (writer : WalSegmentWriter) (call : Append) :
    writer.file.Grows (writer.append call).2.file := by
  have hwrites := ((OutputStream.grows_write writer.file
    (writer.makeHeader call writer.nextSequence).toBytes).trans
      (OutputStream.grows_write_if _ call.payload (call.payload ≠ []))).trans
        (OutputStream.grows_write_if _ (List.replicate (paddingFor (.ofNat recordHeaderSize +
          .ofNat call.payload.length) defaultRecordAlignment).toNat 0)
          (paddingFor (.ofNat recordHeaderSize + .ofNat call.payload.length)
            defaultRecordAlignment ≠ 0))
  unfold append
  split
  · exact .refl _
  split
  · rw [failWriter_file]
    exact .refl _
  · unfold writeRecord
    refine iteInduction
      (motive := fun r : WalAppendResult × WalSegmentWriter => writer.file.Grows r.2.file)
      (fun _ => ?_) fun _ => hwrites
    rw [failWriter_file]
    exact hwrites

/-- A commit takes no bytes out of the file. -/
theorem grows_commit (writer : WalSegmentWriter) : writer.file.Grows writer.commit.2.file := by
  unfold commit
  split
  · exact .refl _
  dsimp only
  split
  · rw [failWriter_file]
    exact writer.file.grows_flush
  · exact writer.file.grows_flush

/-- No call takes bytes out of the file. -/
theorem grows_call (writer : WalSegmentWriter) (c : WriterCall) :
    writer.file.Grows (writer.call c).2.file := by
  cases c with
  | append call => exact writer.grows_append call
  | commit => exact writer.grows_commit
  | pop =>
    obtain ⟨rest, hrest, -⟩ := writer.pop_cases
    unfold WalSegmentWriter.call
    rw [hrest]
    exact .refl _

/-- Neither does closing the file. -/
theorem destroy_of_file {writer : WalSegmentWriter} {bytes : List UInt8}
    (hentry : writer.file.entry = .file bytes) :
    ∃ more, writer.destroy = .file (bytes ++ more) := by
  unfold destroy
  split
  · obtain ⟨flushed, hflushed⟩ := writer.file.grows_flush bytes hentry
    obtain ⟨closed, hclosed⟩ := OutputStream.close_of_file hflushed
    exact ⟨flushed ++ closed, by rw [hclosed, List.append_assoc]⟩
  · exact OutputStream.close_of_file hentry

/-! ## Opening a writer -/

/-- The last valid position that opening a path finds. -/
def recoveredPosition (entry : FileEntry) (scanFaults : List (Option ℕ)) : WalPosition :=
  if entry.bytes?.getD [] = [] then {}
  else (WalSegmentScanner.scan entry scanFaults).lastValidPosition

/-- The number of the first append: behind the last valid position, if there is one. -/
def startingSequence (config : WalWriterConfig) (lastValid : WalPosition) : UInt64 :=
  if lastValid.isValid then lastValid.sequence + 1 else config.firstSequence

/-- A result of a scan that is not ok has an error. -/
def ScanSound (result : WalSegmentScanResult) : Prop := result.ok = false → result.error ≠ .none

theorem sound_incompleteAt (offset : ℕ) (result : WalSegmentScanResult) :
    ScanSound (WalSegmentScanner.incompleteAt offset result) := fun _ => WalError.noConfusion

theorem sound_corruptedAt (offset : ℕ) (result : WalSegmentScanResult) :
    ScanSound (WalSegmentScanner.corruptedAt offset result) := fun _ => WalError.noConfusion

theorem scanLoop_sound {file : List UInt8} {segment : WalSegmentHeader} (rounds : ℕ)
    {expected : UInt64} {result : WalSegmentScanResult} {stream : InputStream}
    (hresult : ScanSound result) :
    ScanSound (WalSegmentScanner.scanLoop file segment rounds expected result stream) := by
  induction rounds generalizing expected result stream with
  | zero => exact hresult
  | succ rounds ih =>
    unfold WalSegmentScanner.scanLoop
    dsimp only
    refine iteInduction (fun _ h => hresult h) fun _ => ?_
    refine iteInduction (fun _ => sound_incompleteAt _ _) fun _ => ?_
    refine iteInduction (fun _ => sound_corruptedAt _ _) fun _ => ?_
    refine iteInduction (fun _ => sound_incompleteAt _ _) fun _ => ?_
    refine iteInduction (fun _ => sound_corruptedAt _ _) fun _ => ?_
    refine iteInduction (fun _ => sound_incompleteAt _ _) fun _ => ?_
    exact ih fun h => hresult h

theorem scan_sound (entry : FileEntry) (scanFaults : List (Option ℕ)) :
    ScanSound (WalSegmentScanner.scan entry scanFaults) := by
  unfold WalSegmentScanner.scan
  split
  · exact fun _ => WalError.noConfusion
  dsimp only
  split_ifs
  · exact fun _ => WalError.noConfusion
  · exact fun _ => WalError.noConfusion
  · exact scanLoop_sound _ fun h => absurd h (by decide)

/-- Preparing an existing segment without an error. -/
theorem prepareExistingSegment_ok {firstSequence : UInt64} {scanFaults : List (Option ℕ)}
    {writer : WalSegmentWriter}
    (hok : (writer.prepareExistingSegment firstSequence scanFaults).1 = .none) :
    ∃ file : OutputStream, (writer.prepareExistingSegment firstSequence scanFaults).2 =
      { writer with
        file := file
        lastPosition := (WalSegmentScanner.scan writer.file.entry scanFaults).lastValidPosition
        lastCommittedPosition :=
          (WalSegmentScanner.scan writer.file.entry scanFaults).lastValidPosition
        nextSequence :=
          if (WalSegmentScanner.scan writer.file.entry scanFaults).lastValidPosition.isValid then
            (WalSegmentScanner.scan writer.file.entry scanFaults).lastValidPosition.sequence + 1
          else firstSequence } := by
  unfold prepareExistingSegment at hok ⊢
  dsimp only at hok ⊢
  generalize readExistingSegmentHeader writer.file.entry = existing at hok ⊢
  have hsound := scan_sound writer.file.entry scanFaults
  generalize WalSegmentScanner.scan writer.file.entry scanFaults = scanResult at hok hsound ⊢
  by_cases hheader : existing.1 ≠ .none
  · rw [if_pos hheader] at hok
    exact absurd hok hheader
  rw [if_neg hheader] at hok ⊢
  split at hok
  · cases hok
  next hmatches =>
    rw [if_neg hmatches]
    have hfirst : existing.2.firstSequence = firstSequence :=
      not_not.mp fun h => hmatches (.inr (.inr h))
    split at hok
    next hscan => exact absurd hok (hsound hscan.1)
    next hscan =>
      rw [if_neg hscan, hfirst]
      exact ⟨_, rfl⟩

/-- A writer that was opened without an error. -/
theorem create_opened {config : WalWriterConfig} {file : OutputStream}
    {scanFaults : List (Option ℕ)} (hopened : (create config file scanFaults).writerError = .none) :
    ∃ opened : OutputStream, create config file scanFaults =
      { file := opened
        streamId := config.streamId
        epoch := config.epoch
        nextSequence := startingSequence config (recoveredPosition file.entry scanFaults)
        lastPosition := recoveredPosition file.entry scanFaults
        lastCommittedPosition := recoveredPosition file.entry scanFaults } := by
  unfold create at hopened ⊢
  split at hopened
  next hdirectory => exact absurd hopened WalError.noConfusion
  next hdirectory =>
  rw [if_neg hdirectory]
  unfold recoveredPosition
  dsimp only at hopened ⊢
  by_cases hfresh : file.entry.bytes?.getD [] = []
  · simp only [hfresh, if_true, ne_eq, not_true, if_false] at hopened ⊢
    split at hopened
    next hfailed => exact absurd hopened WalError.noConfusion
    next hfailed =>
    rw [if_neg hfailed]
    exact ⟨_, rfl⟩
  · simp only [hfresh, if_false] at hopened ⊢
    split at hopened
    next herror => exact absurd hopened herror
    next herror =>
    rw [if_neg herror]
    have hnone := not_not.mp herror
    obtain ⟨opened, hprepared⟩ := prepareExistingSegment_ok hnone
    rw [hnone, hprepared]
    exact ⟨_, rfl⟩

/-- Nothing was appended to the writer yet. -/
structure Unused (writer : WalSegmentWriter) : Prop where
  pending : writer.pendingPositions = []
  committed : writer.committedPositions = []
  last : writer.lastCommittedPosition = writer.lastPosition

/-- An error changes no position. -/
theorem Unused.failWriter {writer : WalSegmentWriter} (h : Unused writer) (error : WalError) :
    Unused (writer.failWriter error) := by
  unfold WalSegmentWriter.failWriter
  split
  · exact ⟨h.pending, h.committed, h.last⟩
  · exact h

/-- Preparing an existing segment sets both positions or none. -/
theorem Unused.prepareExistingSegment {writer : WalSegmentWriter} (h : Unused writer)
    (firstSequence : UInt64) (scanFaults : List (Option ℕ)) :
    Unused (writer.prepareExistingSegment firstSequence scanFaults).2 := by
  unfold WalSegmentWriter.prepareExistingSegment
  dsimp only
  split
  · exact h
  split
  · exact h
  split
  · exact h
  · exact ⟨h.pending, h.committed, rfl⟩

/-- A constructed writer is unused, whether it was opened or not. -/
theorem unused_create (config : WalWriterConfig) (file : OutputStream)
    (scanFaults : List (Option ℕ)) : Unused (create config file scanFaults) := by
  have hnew : Unused
      { file := file, streamId := config.streamId, epoch := config.epoch,
        nextSequence := config.firstSequence } := ⟨rfl, rfl, rfl⟩
  unfold create
  split
  · exact hnew.failWriter _
  by_cases hfresh : file.entry.bytes?.getD [] = []
  · simp only [hfresh, if_true, ne_eq, not_true, if_false]
    split
    · exact Unused.failWriter ⟨rfl, rfl, rfl⟩ _
    · exact ⟨rfl, rfl, rfl⟩
  · simp only [hfresh, if_false]
    obtain ⟨hpending, hcommitted, hlast⟩ :=
      hnew.prepareExistingSegment config.firstSequence scanFaults
    split
    · exact ⟨hpending, hcommitted, hlast⟩
    · exact ⟨hpending, hcommitted, hlast⟩

/-! ## Runs -/

/-- What every run of calls keeps, from an opened writer to the writer at its end. -/
structure Protocol (opened : WalSegmentWriter) (results : List WriterResult)
    (writer : WalSegmentWriter) : Prop where
  streamId : writer.streamId = opened.streamId
  epoch : writer.epoch = opened.epoch
  nextSequence :
    writer.nextSequence = opened.nextSequence + .ofNat (appendedPositions results).length
  consecutive : appendedPositions results = positionsFrom opened.streamId opened.epoch
    opened.nextSequence (appendedPositions results).length
  order : poppedPositions results ++ writer.committedPositions ++ writer.pendingPositions =
    appendedPositions results
  published : poppedPositions results ++ writer.committedPositions = publishedPositions results
  lastPosition :
    writer.lastPosition = (appendedPositions results).getLastD opened.lastPosition
  lastCommitted :
    writer.lastCommittedPosition = (publishedPositions results).getLastD opened.lastPosition

variable {opened writer : WalSegmentWriter} {results : List WriterResult}

/-- Nothing has been appended yet. -/
theorem Protocol.start (h : Unused opened) : Protocol opened [] opened where
  streamId := rfl
  epoch := rfl
  nextSequence := (UInt64.add_zero _).symm
  consecutive := rfl
  order := by rw [h.pending, h.committed]; rfl
  published := by rw [h.committed]; rfl
  lastPosition := rfl
  lastCommitted := h.last

/-- A call that fails is recorded nowhere. -/
theorem Protocol.fails (h : Protocol opened results writer) {after : WalSegmentWriter}
    {error : WalError} (hfails : Fails writer after error) {result : WriterResult}
    (happended : result.appended? = none) (hpopped : result.popped? = none)
    (hcommitted : result.isCommitted = false) : Protocol opened (results ++ [result]) after := by
  obtain ⟨hstreamId, hepoch, hnext, hlast, hlastCommitted, hpending, hqueue⟩ := hfails.kept
  have happended' : appendedPositions (results ++ [result]) = appendedPositions results := by
    rw [appendedPositions_concat, happended, Option.toList_none, List.append_nil]
  have hpopped' : poppedPositions (results ++ [result]) = poppedPositions results := by
    rw [poppedPositions_concat, hpopped, Option.toList_none, List.append_nil]
  have hpublished : publishedPositions (results ++ [result]) = publishedPositions results := by
    rw [publishedPositions_concat, hcommitted, if_neg Bool.false_ne_true]
  refine ⟨?_, ?_, ?_, ?_, ?_, ?_, ?_, ?_⟩
  · rw [hstreamId, h.streamId]
  · rw [hepoch, h.epoch]
  · rw [hnext, happended', h.nextSequence]
  · rw [happended']
    exact h.consecutive
  · rw [hpopped', hqueue, hpending, happended', h.order]
  · rw [hpopped', hqueue, hpublished, h.published]
  · rw [hlast, happended', h.lastPosition]
  · rw [hlastCommitted, hpublished, h.lastCommitted]

/-- A successful append hands out the next position and queues it. -/
theorem Protocol.appended (h : Protocol opened results writer) (file : OutputStream) :
    Protocol opened
      (results ++ [.append
        { status := .appended, error := .none, position := writer.nextPosition }])
      { writer with
        file := file
        lastPosition := writer.nextPosition
        nextSequence := writer.nextSequence + 1
        pendingPositions := writer.pendingPositions ++ [writer.nextPosition] } := by
  generalize hresult : WriterResult.append
    { status := .appended, error := .none, position := writer.nextPosition } = result
  have happended : appendedPositions (results ++ [result]) =
      appendedPositions results ++ [writer.nextPosition] := by
    rw [appendedPositions_concat, ← hresult]
    rfl
  have hpopped : poppedPositions (results ++ [result]) = poppedPositions results := by
    rw [poppedPositions_concat, ← hresult]
    exact List.append_nil _
  have hpublished : publishedPositions (results ++ [result]) = publishedPositions results := by
    rw [publishedPositions_concat, ← hresult]
    rfl
  have hposition : writer.nextPosition = ⟨opened.streamId, opened.epoch,
      opened.nextSequence + .ofNat (appendedPositions results).length⟩ := by
    rw [nextPosition, h.streamId, h.epoch, h.nextSequence]
  refine ⟨h.streamId, h.epoch, ?_, ?_, ?_, ?_, ?_, ?_⟩
  · rw [happended, List.length_append, List.length_singleton, UInt64.ofNat_add,
      ← UInt64.add_assoc, ← h.nextSequence]
    rfl
  · rw [happended, List.length_append, List.length_singleton, positionsFrom_succ, ← hposition,
      ← h.consecutive]
  · rw [hpopped, happended, ← h.order, List.append_assoc _ _ [_]]
  · rw [hpopped, hpublished, h.published]
  · rw [happended, List.getLastD_concat]
  · rw [hpublished]
    exact h.lastCommitted

/-- A successful commit publishes what is pending. -/
theorem Protocol.committed (h : Protocol opened results writer) (file : OutputStream)
    (upTo : WalPosition) :
    Protocol opened
      (results ++ [.commit { status := .committed, error := .none, committedUpTo := upTo }])
      { writer with
        file := file
        committedPositions := writer.committedPositions ++ writer.pendingPositions
        lastCommittedPosition := writer.pendingPositions.getLastD writer.lastCommittedPosition
        pendingPositions := [] } := by
  generalize hresult : WriterResult.commit
    { status := .committed, error := .none, committedUpTo := upTo } = result
  have happended : appendedPositions (results ++ [result]) = appendedPositions results := by
    rw [appendedPositions_concat, ← hresult]
    exact List.append_nil _
  have hpopped : poppedPositions (results ++ [result]) = poppedPositions results := by
    rw [poppedPositions_concat, ← hresult]
    exact List.append_nil _
  have hpublished : publishedPositions (results ++ [result]) = appendedPositions results := by
    rw [publishedPositions_concat, ← hresult]
    rfl
  have horder := h.order
  rw [List.append_assoc] at horder
  refine ⟨h.streamId, h.epoch, ?_, ?_, ?_, ?_, ?_, ?_⟩
  · rw [happended]
    exact h.nextSequence
  · rw [happended]
    exact h.consecutive
  · rw [hpopped, happended, List.append_nil]
    exact horder
  · rw [hpopped, hpublished]
    exact horder
  · rw [happended]
    exact h.lastPosition
  · rw [hpublished, ← h.order, h.published]
    change writer.pendingPositions.getLastD writer.lastCommittedPosition = _
    rw [h.lastCommitted, List.getLastD_eq_getLast?, List.getLastD_eq_getLast?,
      List.getLastD_eq_getLast?, List.getLast?_append, Option.getD_or]

/-- A pop takes the first committed position. -/
theorem Protocol.popped (h : Protocol opened results writer) :
    Protocol opened (results ++ [.pop writer.popCommittedPosition.1])
      writer.popCommittedPosition.2 := by
  generalize hresult : WriterResult.pop writer.popCommittedPosition.1 = result
  have happended : appendedPositions (results ++ [result]) = appendedPositions results := by
    rw [appendedPositions_concat, ← hresult]
    exact List.append_nil _
  have hpopped : poppedPositions (results ++ [result]) =
      poppedPositions results ++ writer.popCommittedPosition.1.toList := by
    rw [poppedPositions_concat, ← hresult]
    rfl
  have hpublished : publishedPositions (results ++ [result]) = publishedPositions results := by
    rw [publishedPositions_concat, ← hresult]
    rfl
  obtain ⟨rest, hrest, hqueue⟩ := writer.pop_cases
  rw [hrest]
  refine ⟨h.streamId, h.epoch, ?_, ?_, ?_, ?_, ?_, ?_⟩
  · rw [happended]
    exact h.nextSequence
  · rw [happended]
    exact h.consecutive
  · rw [hpopped, happended, List.append_assoc (poppedPositions results), hqueue]
    exact h.order
  · rw [hpopped, hpublished, List.append_assoc, hqueue]
    exact h.published
  · rw [happended]
    exact h.lastPosition
  · rw [hpublished]
    exact h.lastCommitted

/-- Every call keeps the protocol. -/
theorem Protocol.call (h : Protocol opened results writer) (c : WriterCall) :
    Protocol opened (results ++ [(writer.call c).1]) (writer.call c).2 := by
  cases c with
  | append record =>
    unfold WalSegmentWriter.call
    dsimp only
    rcases writer.append_cases record with ⟨error, hresult, hfails⟩ | ⟨-, file, heq⟩
    · rw [hresult]
      exact h.fails hfails rfl rfl rfl
    · rw [heq]
      exact h.appended file
  | commit =>
    unfold WalSegmentWriter.call
    dsimp only
    rcases writer.commit_cases with ⟨-, error, hresult, hfails⟩ | ⟨-, file, heq⟩
    · rw [hresult]
      exact h.fails hfails rfl rfl rfl
    · rw [heq]
      exact h.committed file _
  | pop => exact h.popped

/-- Every run keeps the protocol. -/
theorem protocol_run (config : WalWriterConfig) (file : OutputStream)
    (scanFaults : List (Option ℕ)) (calls : List WriterCall) :
    Protocol (create config file scanFaults)
      (machine.run (create config file scanFaults) calls).1
      (machine.run (create config file scanFaults) calls).2 :=
  machine.run_induction (.start (unused_create config file scanFaults))
    (fun _ _ c h => h.call c) calls

/-- The error of a writer stays, and so does its file. -/
theorem run_of_error (herror : writer.writerError ≠ .none) (calls : List WriterCall) :
    (machine.run writer calls).2.writerError = writer.writerError ∧
      (machine.run writer calls).2.file = writer.file := by
  refine machine.run_induction
    (P := fun _ after => after.writerError = writer.writerError ∧ after.file = writer.file)
    ⟨rfl, rfl⟩ (fun _ after c h => ?_) calls
  obtain ⟨hsame, hfile, -⟩ := call_of_error (h.1.trans_ne herror) c
  exact ⟨hsame.trans h.1, hfile.trans h.2⟩

/-- The commit protocol. For a writer that was opened, by any run of calls over a stream
that fails as it likes:
the appended positions are consecutive from the first number, or from behind the last
valid position; those popped, those in the queue and those pending are the appended ones
in their order, and the first two parts are what was appended before the last successful
commit; a failed call leaves the positions, the queues and the next number as they are;
and from then on every append and commit fails with the same error. -/
theorem commit_protocol (config : WalWriterConfig) (file : OutputStream)
    (scanFaults : List (Option ℕ)) (hopened : (create config file scanFaults).writerError = .none)
    (calls : List WriterCall) :
    let results := (machine.run (create config file scanFaults) calls).1
    let writer := (machine.run (create config file scanFaults) calls).2
    (∃ count, appendedPositions results = positionsFrom config.streamId config.epoch
        (startingSequence config (recoveredPosition file.entry scanFaults)) count) ∧
      (poppedPositions results ++ writer.committedPositions ++ writer.pendingPositions =
        appendedPositions results) ∧
      poppedPositions results ++ writer.committedPositions = publishedPositions results ∧
      ∀ c error, (writer.call c).1.error? = some error →
        let after := (writer.call c).2
        (after.lastPosition = writer.lastPosition ∧
          after.pendingPositions = writer.pendingPositions ∧
          after.committedPositions = writer.committedPositions ∧
          after.nextSequence = writer.nextSequence) ∧
        ∀ later d, d ≠ .pop →
          (((machine.run after later).2.call d).1.error? = some error ∧
            ((machine.run after later).2.call d).1.appended? = none) := by
  intro results writer
  have hprotocol := protocol_run config file scanFaults calls
  obtain ⟨stream, hcreate⟩ := create_opened hopened
  have hconsecutive := hprotocol.consecutive
  rw [congrArg WalSegmentWriter.streamId hcreate, congrArg WalSegmentWriter.epoch hcreate,
    congrArg WalSegmentWriter.nextSequence hcreate] at hconsecutive
  refine ⟨⟨_, hconsecutive⟩, hprotocol.order, hprotocol.published, fun c error herror => ?_⟩
  · obtain ⟨hfails, -⟩ := call_fails herror
    obtain ⟨-, -, hnext, hlast, -, hpending, hqueue⟩ := hfails.kept
    refine ⟨⟨hlast, hpending, hqueue, hnext⟩, fun later d hpop => ?_⟩
    have hne : (writer.call c).2.writerError ≠ .none := hfails.writerError.trans_ne hfails.error_ne
    have hlater := (run_of_error hne later).1
    obtain ⟨-, -, happended, hresult⟩ := call_of_error (hlater.trans_ne hne) d
    rw [hlater, hfails.writerError] at hresult
    exact ⟨hresult hpop, happended⟩

/-- A run whose flush fails with one record pending. -/
theorem commit_protocol_failed_flush :
    let config : WalWriterConfig := { streamId := 7, epoch := 3 }
    let file : OutputStream :=
      { entry := .absent, outcomes := [.done 0, .done 9, .done 5, .failed 12] }
    let run := machine.run (create config file)
      [.append { recordType := 1, payload := [] }, .commit]
    appendedPositions run.1 = [⟨7, 3, 1⟩] ∧
      poppedPositions run.1 ++ run.2.committedPositions ++ run.2.pendingPositions =
        [⟨7, 3, 1⟩] := by
  intro config file run
  have hprotocol := commit_protocol config file [] (by decide +kernel)
    [.append { recordType := 1, payload := [] }, .commit]
  have happended : appendedPositions run.1 = [⟨7, 3, 1⟩] := by decide +kernel
  exact ⟨happended, hprotocol.2.1.trans happended⟩

/-! ## What a commit reports -/

/-- Every commit of the run reports the last committed position, which is the position of
the last record that a successful commit has covered, and no record that is still
pending, because the flush failed or because the writer had failed before. -/
def ReportsPublished (opened : WalSegmentWriter) (calls : List WriterCall) : Prop :=
  ∀ earlier later, calls = earlier ++ .commit :: later →
    let result := (machine.run opened earlier).2.commit
    result.1.committedUpTo = result.2.lastCommittedPosition ∧
      result.1.committedUpTo ∉ result.2.pendingPositions ∧
      result.2.lastCommittedPosition =
        (publishedPositions (machine.run opened (earlier ++ [.commit])).1).getLastD
          opened.lastPosition

/-- With nothing pending the last position is the last committed one. -/
theorem Protocol.last_of_pending (h : Protocol opened results writer)
    (hpending : writer.pendingPositions = []) :
    writer.lastPosition = writer.lastCommittedPosition := by
  rw [h.lastPosition, h.lastCommitted, ← h.order, h.published, hpending, List.append_nil]

/-- With a record pending the last position is the one of a pending record. -/
theorem Protocol.last_mem_pending (h : Protocol opened results writer)
    (hpending : writer.pendingPositions ≠ []) :
    writer.lastPosition ∈ writer.pendingPositions := by
  rw [h.lastPosition, ← h.order, List.getLastD_eq_getLast?,
    List.getLast?_append_of_ne_nil _ hpending, List.getLast?_eq_some_getLast hpending]
  exact List.getLast_mem hpending

/-- A commit that fails reports the last position, committed or not: it is right exactly
if nothing is pending. -/
theorem Protocol.commit_reports_iff (h : Protocol opened results writer) :
    (writer.commit.1.committedUpTo = writer.commit.2.lastCommittedPosition ∧
      writer.commit.1.committedUpTo ∉ writer.commit.2.pendingPositions) ↔
      (writer.CommitFails → writer.pendingPositions = []) := by
  rcases writer.commit_cases with ⟨hfails, error, hresult, hkept⟩ | ⟨hsucceeds, file, heq⟩
  · obtain ⟨-, -, -, -, hlast, hpending, -⟩ := hkept.kept
    rw [hresult, hlast, hpending]
    constructor
    · intro hreports _
      by_contra hne
      exact hreports.2 (h.last_mem_pending hne)
    · intro hnone
      refine ⟨h.last_of_pending (hnone hfails), ?_⟩
      rw [hnone hfails]
      exact List.not_mem_nil
  · rw [heq]
    exact iff_of_true ⟨rfl, List.not_mem_nil⟩ fun hfails => absurd hfails hsucceeds

/-- The commits of a run report what was published, and nothing that is pending, exactly
if no record is pending at a commit that fails, be it that the writer has failed before or
that the flush fails. -/
theorem reportsPublished_iff (config : WalWriterConfig) (file : OutputStream)
    (scanFaults : List (Option ℕ)) (calls : List WriterCall) :
    ReportsPublished (create config file scanFaults) calls ↔
      ∀ earlier later, calls = earlier ++ .commit :: later →
        let writer := (machine.run (create config file scanFaults) earlier).2
        writer.CommitFails → writer.pendingPositions = [] := by
  refine forall_congr' fun earlier => forall_congr' fun later => forall_congr' fun _ => ?_
  have hbefore := protocol_run config file scanFaults earlier
  have hafter := (protocol_run config file scanFaults (earlier ++ [.commit])).lastCommitted
  rw [machine.run_concat] at hafter ⊢
  rw [← and_assoc]
  exact (and_iff_left hafter).trans hbefore.commit_reports_iff

/-- One append, and a flush that fails: the commit reports the record as committed. -/
theorem not_reportsPublished_failed_flush :
    let config : WalWriterConfig := { streamId := 7, epoch := 3 }
    let file : OutputStream :=
      { entry := .absent, outcomes := [.done 0, .done 0, .done 0, .failed 0] }
    let writer :=
      (machine.run (create config file) [.append { recordType := 1, payload := [] }]).2
    writer.commit.1 =
        { status := .failed, error := .cannotFlushFile, committedUpTo := ⟨7, 3, 1⟩ } ∧
      writer.commit.2.lastCommittedPosition = {} ∧
      writer.commit.2.pendingPositions = [⟨7, 3, 1⟩] ∧
      ¬ ReportsPublished (create config file)
        [.append { recordType := 1, payload := [] }, .commit] := by
  intro config file writer
  have hresult : writer.commit.1 =
      { status := .failed, error := .cannotFlushFile, committedUpTo := ⟨7, 3, 1⟩ } := by
    decide +kernel
  have hlast : writer.commit.2.lastCommittedPosition = {} := by decide +kernel
  refine ⟨hresult, hlast, by decide +kernel, fun h => ?_⟩
  have hreports := (h [.append { recordType := 1, payload := [] }] [] rfl).1
  change writer.commit.1.committedUpTo = writer.commit.2.lastCommittedPosition at hreports
  rw [hresult, hlast] at hreports
  exact absurd hreports (by decide)

end WalSegmentWriter

end Wal
