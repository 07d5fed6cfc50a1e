import MatchingEngine.Library.FileStream
import MatchingEngine.Wal.Format

/-!
# Scanning a segment for recovery

`wal_segment_scanner.hpp` and `wal_segment_scanner.cpp`. Offsets in a file are far
below the range of `std::uint64_t`, so they are natural numbers; only the cast of the
position `-1` of a failed stream matters.
-/

namespace Wal

/-- `WalSegmentScanResult`. -/
structure WalSegmentScanResult where
  ok : Bool := false
  error : WalError := .none
  lastValidPosition : WalPosition := {}
  lastValidOffset : ℕ := 0
  hasIncompleteTrailingRecord : Bool := false
  deriving DecidableEq

namespace WalSegmentScanner

/-- `static_cast<std::uint64_t>(tellg())`. -/
def offsetOf (position : Option ℕ) : ℕ := position.getD (2 ^ 64 - 1)

/-- The result when a record is cut off. -/
def incompleteAt (recordOffset : ℕ) (result : WalSegmentScanResult) : WalSegmentScanResult :=
  { result with
    ok := false
    error := .incompleteTrailingRecord
    hasIncompleteTrailingRecord := true
    lastValidOffset := recordOffset }

/-- The result when a record is wrong. -/
def corruptedAt (recordOffset : ℕ) (result : WalSegmentScanResult) : WalSegmentScanResult :=
  { result with
    ok := false
    error := .corruptedMiddleRecord
    lastValidOffset := recordOffset }

/-- The loop of `scan`, with a bound on the number of rounds. -/
def scanLoop (file : List UInt8) (segmentHeader : WalSegmentHeader) :
    ℕ → UInt64 → WalSegmentScanResult → InputStream → WalSegmentScanResult
  | 0, _, result, _ => result
  | rounds + 1, expectedSequence, result, stream =>
    let recordOffset := offsetOf stream.tellg.1
    let read := stream.tellg.2.read file recordHeaderSize
    let header := WalRecordHeader.ofBytes read.1
    if read.2.gcount = 0 ∧ read.2.eof then { result with lastValidOffset := recordOffset }
    else if read.2.gcount ≠ recordHeaderSize then incompleteAt recordOffset result
    else if ¬ header.hasValidStaticFields
        ∨ header.headerCrc ≠ header.calculateRecordHeaderCrc
        ∨ header.streamId ≠ segmentHeader.streamId
        ∨ header.epoch ≠ segmentHeader.epoch
        ∨ header.sequence ≠ expectedSequence then corruptedAt recordOffset result
    else
      let length := header.payloadLength.toNat
      let payload := if header.payloadLength ≠ 0 then read.2.read file length else ([], read.2)
      if header.payloadLength ≠ 0 ∧ payload.2.gcount ≠ length then
        incompleteAt recordOffset result
      else if calculateCrc32 payload.1 ≠ header.payloadCrc then corruptedAt recordOffset result
      else
        let stream := if header.padding ≠ 0
          then payload.2.ignore file header.padding.toInt64.toInt
          else payload.2
        if header.padding ≠ 0 ∧ stream.failed then incompleteAt recordOffset result
        else
          scanLoop file segmentHeader rounds (expectedSequence + 1)
            { result with
              lastValidPosition := header.position
              lastValidOffset := offsetOf stream.tellg.1 } stream.tellg.2

/-- `WalSegmentScanner::scan`. Every round but the last takes a record header from the
file, so there are fewer rounds than the bound. `faults` are the errors of the device. -/
def scan (entry : FileEntry) (faults : List (Option ℕ) := []) : WalSegmentScanResult :=
  match entry.openRead faults with
  | none => { ok := false, error := .cannotOpenFile }
  | some (file, stream) =>
    let read := stream.read file segmentHeaderSize
    let segmentHeader := WalSegmentHeader.ofBytes read.1
    if read.2.gcount ≠ segmentHeaderSize ∨ ¬ segmentHeader.hasValidStaticFields then
      { ok := false, error := .invalidSegmentHeader }
    else if segmentHeader.headerCrc ≠ segmentHeader.calculateSegmentHeaderCrc then
      { ok := false, error := .headerChecksumMismatch }
    else
      scanLoop file segmentHeader (file.length + 1) segmentHeader.firstSequence
        { ok := true, error := .none, lastValidOffset := segmentHeaderSize } read.2

end WalSegmentScanner

end Wal
