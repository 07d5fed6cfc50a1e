import MatchingEngine.Wal.SegmentScanner

/-!
# Writing a segment

`wal_segment_writer.hpp` and `wal_segment_writer.cpp`, over a stream that may hold
bytes back and may fail. `WalFile` is modelled by the entry at the path; the parent
directory exists.
-/

namespace Wal

/-- `WalWriterConfig`, without the path. -/
structure WalWriterConfig where
  streamId : UInt64 := 0
  epoch : UInt64 := 0
  firstSequence : UInt64 := 1
  deriving DecidableEq

/-- `WalAppendStatus`. -/
inductive WalAppendStatus where
  | appended
  | rejected
  | failed
  deriving DecidableEq

/-- `WalAppendResult`. -/
structure WalAppendResult where
  status : WalAppendStatus := .failed
  error : WalError := .none
  position : WalPosition := {}
  deriving DecidableEq

/-- `WalCommitStatus`. -/
inductive WalCommitStatus where
  | committed
  | failed
  deriving DecidableEq

/-- `WalCommitResult`. -/
structure WalCommitResult where
  status : WalCommitStatus := .failed
  error : WalError := .none
  committedUpTo : WalPosition := {}
  deriving DecidableEq

/-- The arguments of `append`, and what happens to be in the four bytes of the record
header that belong to no field. -/
structure Append where
  recordType : UInt32
  payload : List UInt8
  tailPadding : UInt32 := 0
  deriving DecidableEq

/-- `WalSegmentWriter`. -/
structure WalSegmentWriter where
  file : OutputStream
  streamId : UInt64 := 0
  epoch : UInt64 := 0
  nextSequence : UInt64 := 1
  lastPosition : WalPosition := {}
  lastCommittedPosition : WalPosition := {}
  writerError : WalError := .none
  pendingPositions : List WalPosition := []
  committedPositions : List WalPosition := []
  deriving DecidableEq

namespace WalSegmentWriter

/-- `fail_writer`. -/
def failWriter (error : WalError) (writer : WalSegmentWriter) : WalSegmentWriter :=
  if writer.writerError = .none then { writer with writerError := error } else writer

/-- `read_existing_segment_header`. -/
def readExistingSegmentHeader (entry : FileEntry) : WalError × WalSegmentHeader :=
  match entry.openRead [] with
  | none => (.cannotOpenFile, {})
  | some (file, stream) =>
    let read := stream.read file segmentHeaderSize
    let header := WalSegmentHeader.ofBytes read.1
    if read.2.gcount ≠ segmentHeaderSize then (.invalidSegmentHeader, header)
    else if ¬ header.hasValidStaticFields then (.invalidSegmentHeader, header)
    else if header.headerCrc ≠ header.calculateSegmentHeaderCrc then
      (.headerChecksumMismatch, header)
    else (.none, header)

/-- `prepare_existing_segment`, with the errors of the device during the scan. -/
def prepareExistingSegment (firstSequence : UInt64) (scanFaults : List (Option ℕ))
    (writer : WalSegmentWriter) : WalError × WalSegmentWriter :=
  let existing := readExistingSegmentHeader writer.file.entry
  let segmentHeader := existing.2
  if existing.1 ≠ .none then (existing.1, writer)
  else if segmentHeader.streamId ≠ writer.streamId
      ∨ segmentHeader.epoch ≠ writer.epoch
      ∨ segmentHeader.firstSequence ≠ firstSequence then (.invalidSegmentHeader, writer)
  else
    let scanResult := WalSegmentScanner.scan writer.file.entry scanFaults
    if scanResult.ok = false ∧ scanResult.error ≠ .incompleteTrailingRecord then
      (scanResult.error, writer)
    else
      let entry :=
        if scanResult.error = .incompleteTrailingRecord then
          writer.file.entry.resize scanResult.lastValidOffset
        else writer.file.entry
      let lastPosition := scanResult.lastValidPosition
      (.none,
        { writer with
          file := { writer.file with entry := entry }
          lastPosition := lastPosition
          lastCommittedPosition := lastPosition
          nextSequence :=
            if lastPosition.isValid then lastPosition.sequence + 1
            else segmentHeader.firstSequence })

/-- The header that `write_segment_header` writes. -/
def segmentHeader (writer : WalSegmentWriter) : WalSegmentHeader :=
  let header : WalSegmentHeader :=
    { streamId := writer.streamId, epoch := writer.epoch, firstSequence := writer.nextSequence }
  { header with headerCrc := header.calculateSegmentHeaderCrc }

/-- `write_segment_header`. -/
def writeSegmentHeader (writer : WalSegmentWriter) : WalSegmentWriter :=
  { writer with file := writer.file.write writer.segmentHeader.toBytes }

/-- `WalSegmentWriter::WalSegmentWriter` on what is at the path. -/
def create (config : WalWriterConfig) (file : OutputStream)
    (scanFaults : List (Option ℕ) := []) : WalSegmentWriter :=
  let writer : WalSegmentWriter :=
    { file := file
      streamId := config.streamId
      epoch := config.epoch
      nextSequence := config.firstSequence }
  if file.entry = .directory then writer.failWriter .cannotWriteFile
  else
    let shouldWriteHeader := file.entry.bytes?.getD [] = []
    let prepared : WalError × WalSegmentWriter :=
      if shouldWriteHeader then (.none, writer)
      else writer.prepareExistingSegment config.firstSequence scanFaults
    let writer : WalSegmentWriter := { prepared.2 with writerError := prepared.1 }
    if writer.writerError ≠ .none then writer
    else
      let writer := { writer with file := writer.file.openAppend }
      if shouldWriteHeader then
        let writer := writer.writeSegmentHeader
        if writer.file.failed then writer.failWriter .cannotWriteFile else writer
      else writer

/-- `make_header`. -/
def makeHeader (call : Append) (sequence : UInt64) (writer : WalSegmentWriter) :
    WalRecordHeader :=
  let payloadLength := UInt32.ofNat call.payload.length
  let header : WalRecordHeader :=
    { recordLength := alignUp (.ofNat recordHeaderSize + payloadLength) defaultRecordAlignment
      recordType := call.recordType
      streamId := writer.streamId
      epoch := writer.epoch
      sequence := sequence
      payloadLength := payloadLength
      payloadCrc := calculateCrc32 call.payload
      tailPadding := call.tailPadding }
  { header with headerCrc := header.calculateRecordHeaderCrc }

/-- `write_record`. -/
def writeRecord (call : Append) (writer : WalSegmentWriter) :
    WalAppendResult × WalSegmentWriter :=
  let header := writer.makeHeader call writer.nextSequence
  let file := writer.file.write header.toBytes
  let file := if call.payload ≠ [] then file.write call.payload else file
  let padding := paddingFor (.ofNat recordHeaderSize + .ofNat call.payload.length)
    defaultRecordAlignment
  let file := if padding ≠ 0 then file.write (List.replicate padding.toNat 0) else file
  let writer := { writer with file := file }
  if writer.file.failed then
    ({ status := .failed, error := .cannotWriteFile, position := writer.lastPosition },
      writer.failWriter .cannotWriteFile)
  else
    let position : WalPosition := ⟨writer.streamId, writer.epoch, writer.nextSequence⟩
    ({ status := .appended, error := .none, position := position },
      { writer with
        lastPosition := position
        nextSequence := writer.nextSequence + 1
        pendingPositions := writer.pendingPositions ++ [position] })

/-- `append`. -/
def append (call : Append) (writer : WalSegmentWriter) : WalAppendResult × WalSegmentWriter :=
  if writer.writerError ≠ .none then
    ({ status := .failed, error := writer.writerError, position := writer.lastPosition }, writer)
  else if writer.file.failed then
    ({ status := .failed, error := .cannotWriteFile, position := writer.lastPosition },
      writer.failWriter .cannotWriteFile)
  else writer.writeRecord call

/-- `commit`. -/
def commit (writer : WalSegmentWriter) : WalCommitResult × WalSegmentWriter :=
  if writer.writerError ≠ .none then
    ({ status := .failed, error := writer.writerError, committedUpTo := writer.lastPosition },
      writer)
  else
    let writer := { writer with file := writer.file.flush }
    if writer.file.failed then
      ({ status := .failed, error := .cannotFlushFile, committedUpTo := writer.lastPosition },
        writer.failWriter .cannotFlushFile)
    else
      let writer := { writer with
        committedPositions := writer.committedPositions ++ writer.pendingPositions
        lastCommittedPosition := writer.pendingPositions.getLastD writer.lastCommittedPosition
        pendingPositions := [] }
      ({ status := .committed, error := .none, committedUpTo := writer.lastCommittedPosition },
        writer)

/-- `pop_committed_position`. -/
def popCommittedPosition (writer : WalSegmentWriter) : Option WalPosition × WalSegmentWriter :=
  match writer.committedPositions with
  | [] => (none, writer)
  | position :: rest => (some position, { writer with committedPositions := rest })

/-- The destructor flushes an open file and closes it. -/
def destroy (writer : WalSegmentWriter) : FileEntry :=
  if writer.file.isOpen then writer.file.flush.close else writer.file.close

/-- Several calls of `append`. -/
def appendAll (calls : List Append) (writer : WalSegmentWriter) : WalSegmentWriter :=
  calls.foldl (fun writer call => (writer.append call).2) writer

/-- One session: a writer is opened on a path, appends records, commits and goes out of
scope. `outcomes` is what the device makes of the operations of its stream. -/
def session (config : WalWriterConfig) (calls : List Append) (outcomes : List SinkOutcome)
    (entry : FileEntry) : FileEntry :=
  ((create config { entry := entry, outcomes := outcomes }).appendAll calls).commit.2.destroy

end WalSegmentWriter

end Wal
