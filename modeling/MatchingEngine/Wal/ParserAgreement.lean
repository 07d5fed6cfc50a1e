import MatchingEngine.Wal.Sessions

/-!
# The two parsers read the same log

The reader and the scanner are written separately, and each of them walks over the
frames of the file. So they agree on every file whose segment header is valid.
-/

namespace Wal

open Framing

/-- Reading a segment until no record is returned ends as the scan of the segment does:
at the end of the log when the scan is ok, with a cut-off record when the scan finds
one, and otherwise when the scan finds the file corrupted. Both end at one position. -/
theorem reader_agrees_with_scanner {file : List UInt8} (hvalid : SegmentHeaderValid file) :
    ∃ read, WalSegmentReader.readAll (.file file) = some read ∧
      ((segmentHeaderOf file).firstSequence.toNat + read.records.length < 2 ^ 64 →
        let scan := WalSegmentScanner.scan (.file file)
        (read.final.status = .endOfLog ↔ scan.ok = true) ∧
          (read.final.status = .failed ∧ read.final.error = .incompleteTrailingRecord ↔
            scan.hasIncompleteTrailingRecord = true) ∧
          (read.final.status = .failed ∧ read.final.error ≠ .incompleteTrailingRecord ↔
            scan.error = .corruptedMiddleRecord) ∧
          read.lastPosition = scan.lastValidPosition) := by
  obtain ⟨views, size, ending, hframes⟩ := Parses.exists_of_progress
    (frontAt_progress (segmentHeaderOf file))
    (segmentHeaderOf file).firstSequence (file.drop segmentHeaderSize)
  obtain ⟨read, hread⟩ := WalSegmentReader.exists_readAll file
  refine ⟨read, hread, fun hwrap => ?_⟩
  have hrecords := WalSegmentReader.readAll_of_frames hvalid hframes hread
    (WalSegmentReader.countsOn_of_le hvalid.fields.2.2.2.2.2 (by omega))
  have hscan := WalSegmentScanner.scan_of_frames hvalid hframes
  rw [hrecords, hscan]
  cases ending with
  | none => simp [WalSegmentReader.finalOf, WalSegmentScanner.endAt]
  | some error =>
    by_cases htorn : error = .incompleteTrailingRecord
    · subst htorn
      simp [WalSegmentReader.finalOf, WalSegmentScanner.endAt, WalSegmentScanner.incompleteAt]
    · rw [WalSegmentScanner.endAt_of_ne htorn]
      simp [WalSegmentReader.finalOf, WalSegmentScanner.corruptedAt, htorn]

/-- A segment with one record and two stray bytes behind it: both parsers find a cut-off
record behind the first one. -/
theorem reader_agrees_with_scanner_torn :
    let config : WalWriterConfig := { streamId := 7, epoch := 3 }
    let file := config.segmentBytes [{ recordType := 200, payload := [1, 2, 3] }] ++ [0xAA, 0xBB]
    ∃ read, WalSegmentReader.readAll (.file file) = some read ∧
      read.records = [⟨200, ⟨7, 3, 1⟩, [1, 2, 3]⟩] ∧
      (WalSegmentScanner.scan (.file file)).hasIncompleteTrailingRecord = true ∧
      (WalSegmentScanner.scan (.file file)).lastValidPosition = read.lastPosition := by
  intro config file
  have hvalid : config.Valid := ⟨by decide, by decide, by decide⟩
  have hfits : ∀ call ∈ [({ recordType := 200, payload := [1, 2, 3] } : Append)], call.Fits := by
    decide
  have htorn : Frames config.segmentHeader (config.firstSequence + .ofNat 1) [0xAA, 0xBB] [] 0
      (some .incompleteTrailingRecord) := .stop rfl
  obtain ⟨hsegment, hheader, -⟩ := WalSegmentWriter.segment_append hvalid hfits htorn
  obtain ⟨last, hknown⟩ := readAll_append hvalid hfits htorn
    (WalSegmentReader.countsOn_of_le hvalid.2.2 (by decide))
  obtain ⟨read, hread, hagree⟩ := reader_agrees_with_scanner hsegment
  cases hknown.symm.trans hread
  have hwrap : config.segmentHeader.firstSequence.toNat + 1 < 2 ^ 64 := by decide
  obtain ⟨-, hincomplete, -, hlast⟩ := hagree (by rw [hheader]; exact hwrap)
  exact ⟨_, hread, rfl, hincomplete.mp ⟨rfl, rfl⟩, hlast.symm⟩

end Wal
