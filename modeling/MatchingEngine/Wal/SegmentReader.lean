import MatchingEngine.Library.FileStream
import MatchingEngine.Wal.Format

/-!
# Reading a segment

`wal_segment_reader.hpp` and `wal_segment_reader.cpp`. The bytes of the file are an
argument of every call, so that a writer may be at work between two of them.
-/

namespace Wal

/-- `WalReadStatus`. -/
inductive WalReadStatus where
  | recordRead
  | endOfLog
  | failed
  deriving DecidableEq

/-- `WalReadResult`. -/
structure WalReadResult where
  status : WalReadStatus := .failed
  error : WalError := .none
  position : WalPosition := {}
  deriving DecidableEq

/-- `WalRecordView`. -/
structure WalRecordView where
  header : WalRecordHeader := {}
  payload : List UInt8 := []
  deriving DecidableEq

/-- `WalRecord`, the public copy of a record that was read. -/
structure WalRecord where
  recordType : UInt32 := 0
  position : WalPosition := {}
  payload : List UInt8 := []
  deriving DecidableEq

/-- `WalSegmentReader`. -/
structure WalSegmentReader where
  file : InputStream
  segmentHeader : WalSegmentHeader := {}
  lastPosition : WalPosition := {}
  openResult : WalReadResult := { status := .failed, error := .cannotReadFile }
  deriving DecidableEq

namespace WalSegmentReader

/-- The result of a failed read. -/
def refuse (reader : WalSegmentReader) (error : WalError) : WalReadResult :=
  { status := .failed, error := error, position := reader.lastPosition }

/-- `read_segment_header`. -/
def readSegmentHeader (file : List UInt8) (reader : WalSegmentReader) :
    WalReadResult × WalSegmentReader :=
  let read := reader.file.read file segmentHeaderSize
  let header := WalSegmentHeader.ofBytes read.1
  let reader := { reader with file := read.2, segmentHeader := header }
  if reader.file.failed then (reader.refuse .cannotReadFile, reader)
  else if ¬ header.hasValidStaticFields then (reader.refuse .invalidSegmentHeader, reader)
  else if header.headerCrc ≠ header.calculateSegmentHeaderCrc then
    (reader.refuse .headerChecksumMismatch, reader)
  else ({ status := .recordRead, error := .none, position := reader.lastPosition }, reader)

/-- `WalSegmentReader::WalSegmentReader`. -/
def create (entry : FileEntry) : WalSegmentReader :=
  match entry.openRead [] with
  | none =>
    { file := { fail := true }
      openResult := { status := .failed, error := .cannotOpenFile } }
  | some (file, stream) =>
    let opened := readSegmentHeader file { file := stream }
    { opened.2 with openResult := opened.1 }

/-- The sequence number the next record must have. -/
def expectedSequence (reader : WalSegmentReader) : UInt64 :=
  if reader.lastPosition.isValid then reader.lastPosition.sequence + 1
  else reader.segmentHeader.firstSequence

/-- `read_record_header`. -/
def readRecordHeader (file : List UInt8) (reader : WalSegmentReader) :
    WalReadResult × WalRecordHeader × WalSegmentReader :=
  let read := reader.file.read file recordHeaderSize
  let header := WalRecordHeader.ofBytes read.1
  let reader := { reader with file := read.2 }
  if reader.file.gcount = 0 ∧ reader.file.eof then
    ({ status := .endOfLog, error := .endOfLog, position := reader.lastPosition }, header,
      { reader with file := reader.file.clear })
  else if reader.file.gcount ≠ recordHeaderSize then
    (reader.refuse .incompleteTrailingRecord, header, reader)
  else if ¬ header.hasValidStaticFields then
    (reader.refuse .invalidRecordHeader, header, reader)
  else if header.headerCrc ≠ header.calculateRecordHeaderCrc then
    (reader.refuse .headerChecksumMismatch, header, reader)
  else if header.streamId ≠ reader.segmentHeader.streamId
      ∨ header.epoch ≠ reader.segmentHeader.epoch then
    (reader.refuse .invalidRecordHeader, header, reader)
  else if header.sequence ≠ reader.expectedSequence then
    (reader.refuse .unexpectedSequence, header, reader)
  else ({ status := .recordRead, error := .none, position := header.position }, header, reader)

/-- `read_payload`, with the contents of the payload buffer. -/
def readPayload (file : List UInt8) (header : WalRecordHeader) (reader : WalSegmentReader) :
    WalReadResult × List UInt8 × WalSegmentReader :=
  let length := header.payloadLength.toNat
  let read := if header.payloadLength ≠ 0 then reader.file.read file length else ([], reader.file)
  let reader := { reader with file := read.2 }
  if header.payloadLength ≠ 0 ∧ reader.file.gcount ≠ length then
    (reader.refuse .incompleteTrailingRecord, read.1, reader)
  else if calculateCrc32 read.1 ≠ header.payloadCrc then
    (reader.refuse .payloadChecksumMismatch, read.1, reader)
  else ({ status := .recordRead, error := .none, position := header.position }, read.1, reader)

/-- `read_next`, with the record that is written to the argument. -/
def readNext (file : List UInt8) (reader : WalSegmentReader) :
    WalReadResult × Option WalRecordView × WalSegmentReader :=
  if reader.openResult.status ≠ .recordRead then (reader.openResult, none, reader)
  else if reader.file.failed then (reader.refuse .cannotReadFile, none, reader)
  else
    let headerRead := reader.readRecordHeader file
    let header := headerRead.2.1
    if headerRead.1.status ≠ .recordRead then (headerRead.1, none, headerRead.2.2)
    else
      let payloadRead := headerRead.2.2.readPayload file header
      let reader := payloadRead.2.2
      if payloadRead.1.status ≠ .recordRead then (payloadRead.1, none, reader)
      else
        let reader := if header.padding ≠ 0
          then { reader with file := reader.file.ignore file header.padding.toInt64.toInt }
          else reader
        if header.padding ≠ 0 ∧ reader.file.failed then
          (reader.refuse .cannotReadFile, none, reader)
        else
          let reader := { reader with lastPosition := header.position }
          ({ status := .recordRead, error := .none, position := reader.lastPosition },
            some { header := header, payload := payloadRead.2.1 }, reader)

/-- What calling `read_next` until it returns no record gives. -/
structure ReadBack where
  records : List WalRecord
  final : WalReadResult
  lastPosition : WalPosition
  deriving DecidableEq

/-- At most `calls` calls of `read_next`, up to the first that returns no record. -/
def readRecords (file : List UInt8) : ℕ → WalSegmentReader → Option ReadBack
  | 0, _ => none
  | calls + 1, reader =>
    match reader.readNext file with
    | (result, some view, reader) =>
      (readRecords file calls reader).map fun rest =>
        { rest with records :=
            { recordType := view.header.recordType
              position := result.position
              payload := view.payload } :: rest.records }
    | (result, none, reader) => some ⟨[], result, reader.lastPosition⟩

/-- A fresh reader is read until it returns no record. Every record takes up space in
the file, so there are fewer records than calls. -/
def readAll (entry : FileEntry) : Option ReadBack :=
  readRecords (entry.bytes?.getD []) ((entry.bytes?.getD []).length + 1) (create entry)

end WalSegmentReader

end Wal
