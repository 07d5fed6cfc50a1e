import MatchingEngine.Wal.ReaderFrames
import MatchingEngine.Wal.WrittenFrames

/-!
# Reading on after a failure

A reader that has refused a record is called again. Its stream then stands behind the
refused header, or behind the payload with another checksum, and the next call looks for
a record there. `GoesOn` are the places that are reached in this way.
-/

namespace Wal

open Framing InputStream

/-- The number that a reader expects behind a position. -/
def expectedAfter (segment : WalSegmentHeader) (position : WalPosition) : UInt64 :=
  if position.isValid then position.sequence + 1 else segment.firstSequence

/-- The bytes at an offset as a record header. -/
def headerAt (file : List UInt8) (offset : ℕ) : WalRecordHeader :=
  .ofBytes ((file.drop offset).take recordHeaderSize)

/-- The bytes behind the record header at an offset, as many as it announces. -/
def payloadAt (file : List UInt8) (offset : ℕ) : List UInt8 :=
  (file.drop (offset + recordHeaderSize)).take (headerAt file offset).payloadLength.toNat

/-- What is found at an offset behind a record with this position. -/
def foundAt (file : List UInt8) (offset : ℕ) (position : WalPosition) :
    Front UInt64 WalRecordView WalError :=
  frontAt (segmentHeaderOf file) (expectedAfter (segmentHeaderOf file) position)
    (file.drop offset)

/-- The places of a file where a reader looks for the next record, and whether it has
failed before: behind the segment header, behind a record, and after a failure behind the
header that was refused, or behind the payload that has another checksum. -/
inductive GoesOn (file : List UInt8) : Bool → ℕ → WalPosition → Prop where
  | start (hvalid : SegmentHeaderValid file) : GoesOn file false segmentHeaderSize {}
  | record {offset : ℕ} {position : WalPosition} {view : WalRecordView} {next : UInt64}
    {size : ℕ} (hbefore : GoesOn file false offset position)
    (hfound : foundAt file offset position = .item view next size) :
    GoesOn file false (offset + size) view.header.position
  | header {failed : Bool} {offset : ℕ} {position : WalPosition} {error : WalError}
    (hbefore : GoesOn file failed offset position)
    (hlong : offset + recordHeaderSize ≤ file.length)
    (hrefusal : (headerAt file offset).refusal (segmentHeaderOf file)
      (expectedAfter (segmentHeaderOf file) position) = some error) :
    GoesOn file true (offset + recordHeaderSize) position
  | payload {failed : Bool} {offset : ℕ} {position : WalPosition}
    (hbefore : GoesOn file failed offset position)
    (haccepted : (headerAt file offset).refusal (segmentHeaderOf file)
      (expectedAfter (segmentHeaderOf file) position) = none)
    (hlong : offset + recordHeaderSize + (headerAt file offset).payloadLength.toNat ≤ file.length)
    (hchecksum : calculateCrc32 (payloadAt file offset) ≠ (headerAt file offset).payloadCrc) :
    GoesOn file true
      (offset + recordHeaderSize + (headerAt file offset).payloadLength.toNat) position

/-- At a place where the reader goes on after a failure there is a record. -/
def Resynchronizes (file : List UInt8) : Prop :=
  ∃ offset position view next size,
    GoesOn file true offset position ∧ foundAt file offset position = .item view next size

namespace WalSegmentReader

/-- The reader of a file after so many calls of `read_next`. -/
def after (file : List UInt8) (calls : ℕ) : WalSegmentReader :=
  (fun reader => (reader.readNext file).2.2)^[calls] (create (.file file))

/-- The result of the call of `read_next` behind so many others. -/
def resultAfter (file : List UInt8) (calls : ℕ) : WalReadResult :=
  ((after file calls).readNext file).1

/-- Once a call has failed no later call returns a record. -/
def FailsForGood (file : List UInt8) : Prop :=
  ∀ earlier later, earlier < later → (resultAfter file earlier).status = .failed →
    (resultAfter file later).status ≠ .recordRead

/-- An open reader at a place of the file. -/
structure At (file : List UInt8) (offset : ℕ) (position : WalPosition)
    (reader : WalSegmentReader) : Prop where
  opened : reader.openResult.status = .recordRead
  segment : reader.segmentHeader = segmentHeaderOf file
  last : reader.lastPosition = position
  stream : Positioned file offset reader.file

/-- A reader that finds no record any more. -/
inductive Closed (file : List UInt8) (reader : WalSegmentReader) : Prop where
  | notOpened (hstatus : reader.openResult.status = .failed)
  | streamFailed (hopened : reader.openResult.status = .recordRead)
    (hfailed : reader.file.failed = true)
  | atEnd (hopened : reader.openResult.status = .recordRead)
    (hend : Positioned file file.length reader.file)

variable {file : List UInt8} {offset : ℕ} {position : WalPosition} {reader : WalSegmentReader}

theorem At.expected (h : At file offset position reader) :
    reader.expectedSequence = expectedAfter (segmentHeaderOf file) position := by
  rw [expectedSequence, h.segment, h.last, expectedAfter]

/-- What a call finds. -/
theorem At.front (h : At file offset position reader) :
    frontAt reader.segmentHeader reader.expectedSequence (file.drop offset) =
      foundAt file offset position := by
  rw [h.expected, h.segment, foundAt]

/-- A reader stays closed. -/
theorem Closed.readNext (h : Closed file reader) :
    (reader.readNext file).1.status ≠ .recordRead ∧ Closed file (reader.readNext file).2.2 := by
  cases h with
  | notOpened hstatus =>
    have hread : reader.readNext file = (reader.openResult, none, reader) := by
      unfold WalSegmentReader.readNext
      rw [if_pos (by rw [hstatus]; exact WalReadStatus.noConfusion)]
    rw [hread]
    exact ⟨by rw [hstatus]; exact WalReadStatus.noConfusion, .notOpened hstatus⟩
  | streamFailed hopened hfailed =>
    have hread : reader.readNext file = (reader.refuse .cannotReadFile, none, reader) := by
      unfold WalSegmentReader.readNext
      rw [if_neg (not_not.mpr hopened), if_pos hfailed]
    rw [hread]
    exact ⟨WalReadStatus.noConfusion, .streamFailed hopened hfailed⟩
  | atEnd hopened hend =>
    obtain ⟨stream, hread, hpositioned⟩ := readNext_end hopened hend le_rfl
    rw [hread]
    exact ⟨WalReadStatus.noConfusion, .atEnd hopened hpositioned⟩

/-- A record is read. -/
theorem At.record (h : At file offset position reader) {view : WalRecordView} {next : UInt64}
    {size : ℕ} (hfound : foundAt file offset position = .item view next size) :
    (reader.readNext file).1.status = .recordRead ∧
      At file (offset + size) view.header.position (reader.readNext file).2.2 := by
  have hstep := readNext_step h.opened h.stream
  rw [h.front, hfound] at hstep
  generalize reader.readNext file = outcome at hstep ⊢
  cases hstep with
  | item _ _ _ hpositioned => exact ⟨rfl, h.opened, h.segment, rfl, hpositioned⟩

/-- A stream inside the file. -/
theorem At.reading (h : At file offset position reader) (hinside : offset ≤ file.length) :
    ∃ gcount, reader.file = InputStream.reading offset gcount := by
  rcases h.stream with ⟨-, hfile⟩ | ⟨hpast, -⟩
  · exact hfile
  · exact absurd hinside (Nat.not_le.mpr hpast)

/-- A header is refused, and the reader stands behind it. -/
theorem At.header (h : At file offset position reader)
    (hlong : offset + recordHeaderSize ≤ file.length) {error : WalError}
    (hrefusal : (headerAt file offset).refusal (segmentHeaderOf file)
      (expectedAfter (segmentHeaderOf file) position) = some error) :
    (reader.readNext file).1.status = .failed ∧
      At file (offset + recordHeaderSize) position (reader.readNext file).2.2 := by
  obtain ⟨gcount, hfile⟩ := h.reading (by omega)
  rw [← h.expected, ← h.segment] at hrefusal
  rw [readNext_refused h.opened hfile hlong rfl hrefusal]
  exact ⟨rfl, h.opened, h.segment, h.last, .inl ⟨hlong, _, rfl⟩⟩

/-- A payload has another checksum, and the reader stands behind it. -/
theorem At.payload (h : At file offset position reader)
    (haccepted : (headerAt file offset).refusal (segmentHeaderOf file)
      (expectedAfter (segmentHeaderOf file) position) = none)
    (hlong : offset + recordHeaderSize + (headerAt file offset).payloadLength.toNat ≤ file.length)
    (hchecksum : calculateCrc32 (payloadAt file offset) ≠ (headerAt file offset).payloadCrc) :
    (reader.readNext file).1.status = .failed ∧
      At file (offset + recordHeaderSize + (headerAt file offset).payloadLength.toNat) position
        (reader.readNext file).2.2 := by
  obtain ⟨gcount, hfile⟩ := h.reading (by omega)
  rw [← h.expected, ← h.segment] at haccepted
  obtain ⟨gcount', hread⟩ := readNext_mismatch h.opened hfile rfl haccepted hlong rfl hchecksum
  rw [hread]
  exact ⟨rfl, h.opened, h.segment, h.last, .inl ⟨hlong, _, rfl⟩⟩

/-- A call at a place finds no more records for good, or it fails and goes on at another
place, or there is a record. -/
theorem At.step {failed : Bool} (h : At file offset position reader)
    (hgoes : GoesOn file failed offset position) :
    ((reader.readNext file).1.status ≠ .recordRead ∧ Closed file (reader.readNext file).2.2) ∨
      ((reader.readNext file).1.status = .failed ∧ ∃ offset', GoesOn file true offset' position ∧
        At file offset' position (reader.readNext file).2.2) ∨
      ∃ view next size, foundAt file offset position = .item view next size := by
  have hcase := frontAt_case (segmentHeaderOf file)
    (expectedAfter (segmentHeaderOf file) position) (file.drop offset)
  rcases Nat.lt_or_ge offset file.length with hinside | hend
  · obtain ⟨gcount, hfile⟩ := h.reading hinside.le
    have hlength : (file.drop offset).length = file.length - offset := List.length_drop
    change FrontCase _ _ _ (foundAt file offset position) at hcase
    generalize foundAt file offset position = found at hcase ⊢
    cases hcase with
    | done hempty =>
      rw [hempty, List.length_nil] at hlength
      omega
    | torn _ hshort =>
      obtain ⟨stream, hread, hfailed⟩ := readNext_torn h.opened hfile hinside (by omega)
      rw [hread]
      exact .inl ⟨WalReadStatus.noConfusion, .streamFailed h.opened hfailed⟩
    | @refused header error hlong hheader hrefusal =>
      have hhere : header = headerAt file offset := hheader
      have hinside' : offset + recordHeaderSize ≤ file.length := by omega
      rw [hhere] at hrefusal
      obtain ⟨hstatus, hafter⟩ := h.header hinside' hrefusal
      exact .inr (.inl ⟨hstatus, _, .header hgoes hinside' hrefusal, hafter⟩)
    | tornPayload hlong hheader haccepted hshort =>
      rw [← h.expected, ← h.segment] at haccepted
      obtain ⟨stream, hread, hfailed⟩ := readNext_tornPayload h.opened hfile hheader haccepted
        (by omega) (by omega)
      rw [hread]
      exact .inl ⟨WalReadStatus.noConfusion, .streamFailed h.opened hfailed⟩
    | @mismatch header payload hheader haccepted hlong hpayload hchecksum =>
      have hhere : header = headerAt file offset := hheader
      rw [List.drop_drop, hhere] at hpayload
      have hbehind : payload = payloadAt file offset := hpayload
      rw [hhere] at haccepted hlong
      rw [hhere, hbehind] at hchecksum
      have hinside' : offset + recordHeaderSize +
          (headerAt file offset).payloadLength.toNat ≤ file.length := by omega
      obtain ⟨hstatus, hafter⟩ := h.payload haccepted hinside' hchecksum
      exact .inr (.inl ⟨hstatus, _, .payload hgoes haccepted hinside' hchecksum, hafter⟩)
    | item => exact .inr (.inr ⟨_, _, _, rfl⟩)
  · obtain ⟨stream, hread, hpositioned⟩ := readNext_end h.opened h.stream hend
    rw [hread]
    exact .inl ⟨WalReadStatus.noConfusion, .atEnd h.opened hpositioned⟩

/-- One more call. -/
theorem after_succ (file : List UInt8) (calls : ℕ) :
    after file (calls + 1) = ((after file calls).readNext file).2.2 :=
  Function.iterate_succ_apply' _ _ _

/-- The reader of a valid segment starts behind its header. -/
theorem at_start (hvalid : SegmentHeaderValid file) :
    At file segmentHeaderSize {} (after file 0) := by
  have hcreate : after file 0 = create (.file file) := rfl
  rw [hcreate, create_of_valid hvalid]
  exact ⟨rfl, rfl, rfl, .inl ⟨hvalid.complete, _, rfl⟩⟩

/-- Every place where a reader goes on is reached. -/
theorem exists_at {failed : Bool} (hgoes : GoesOn file failed offset position) :
    ∃ calls, At file offset position (after file calls) ∧
      (failed = true → ∃ earlier < calls, (resultAfter file earlier).status = .failed) := by
  induction hgoes with
  | start hvalid => exact ⟨0, at_start hvalid, fun h => absurd h Bool.false_ne_true⟩
  | record _ hfound ih =>
    obtain ⟨calls, hat, -⟩ := ih
    refine ⟨calls + 1, ?_, fun h => absurd h Bool.false_ne_true⟩
    rw [after_succ]
    exact (hat.record hfound).2
  | header _ hlong hrefusal ih =>
    obtain ⟨calls, hat, -⟩ := ih
    obtain ⟨hstatus, hafter⟩ := hat.header hlong hrefusal
    refine ⟨calls + 1, ?_, fun _ => ⟨calls, Nat.lt_succ_self _, hstatus⟩⟩
    rw [after_succ]
    exact hafter
  | payload _ haccepted hlong hchecksum ih =>
    obtain ⟨calls, hat, -⟩ := ih
    obtain ⟨hstatus, hafter⟩ := hat.payload haccepted hlong hchecksum
    refine ⟨calls + 1, ?_, fun _ => ⟨calls, Nat.lt_succ_self _, hstatus⟩⟩
    rw [after_succ]
    exact hafter

/-- Without a record at those places a reader is always closed, or at a place, before
which it has not failed if the place says so. -/
theorem closed_or_at (hnone : ¬ Resynchronizes file) (calls : ℕ) :
    Closed file (after file calls) ∨ ∃ failed offset position,
      GoesOn file failed offset position ∧ At file offset position (after file calls) ∧
        (failed = false → ∀ earlier < calls, (resultAfter file earlier).status ≠ .failed) := by
  induction calls with
  | zero =>
    by_cases hvalid : SegmentHeaderValid file
    · refine .inr ⟨false, _, _, .start hvalid, at_start hvalid, fun _ _ h => ?_⟩
      exact absurd h (Nat.not_lt_zero _)
    · obtain ⟨error, opened, hread, -⟩ := readSegmentHeader_of_invalid hvalid
      refine .inl (.notOpened ?_)
      change (create (.file file)).openResult.status = .failed
      unfold create
      simp only [FileEntry.openRead, hread]
  | succ calls ih =>
    rw [after_succ]
    rcases ih with hclosed | ⟨failed, offset, position, hgoes, hat, hearlier⟩
    · exact .inl hclosed.readNext.2
    · rcases hat.step hgoes with
        ⟨-, hclosed⟩ | ⟨-, offset', hgoes', hat'⟩ | ⟨view, next, size, hfound⟩
      · exact .inl hclosed
      · exact .inr ⟨true, offset', position, hgoes', hat',
          fun h => absurd h.symm Bool.false_ne_true⟩
      · cases failed with
        | true => exact absurd ⟨offset, position, view, next, size, hgoes, hfound⟩ hnone
        | false =>
          obtain ⟨hstatus, hat'⟩ := hat.record hfound
          refine .inr ⟨false, _, _, .record hgoes hfound, hat', fun _ earlier hlt => ?_⟩
          rcases Nat.lt_succ_iff_lt_or_eq.mp hlt with hlt | rfl
          · exact hearlier rfl earlier hlt
          · change ((after file earlier).readNext file).1.status ≠ .failed
            rw [hstatus]
            exact WalReadStatus.noConfusion

/-- A reader fails for good exactly if no record is found at a place where it goes on
after a failure. -/
theorem failsForGood_iff (file : List UInt8) : FailsForGood file ↔ ¬ Resynchronizes file := by
  constructor
  · rintro hgood ⟨offset, position, view, next, size, hgoes, hfound⟩
    obtain ⟨calls, hat, hearlier⟩ := exists_at hgoes
    obtain ⟨earlier, hlt, hfailed⟩ := hearlier rfl
    exact hgood earlier calls hlt hfailed (hat.record hfound).1
  · intro hnone earlier later hlt hfailed hread
    rcases closed_or_at hnone later with hclosed | ⟨failed, offset, position, hgoes, hat, hearlier'⟩
    · exact hclosed.readNext.1 hread
    · rcases hat.step hgoes with ⟨hother, -⟩ | ⟨hstatus, -⟩ | ⟨view, next, size, hfound⟩
      · exact hother hread
      · exact WalReadStatus.noConfusion (hstatus.symm.trans hread)
      · cases failed with
        | true => exact hnone ⟨offset, position, view, next, size, hgoes, hfound⟩
        | false => exact hearlier' rfl earlier hlt hfailed

/-- The second record of the segment is in the payload of the first, which is out of
sequence. The first call refuses the outer record and the second hands out the inner one. -/
theorem not_failsForGood_nested :
    let config : WalWriterConfig := { streamId := 7, epoch := 3 }
    let inner := config.frameBytes 1 { recordType := 9, payload := [] }
    let file :=
      config.segmentHeader.toBytes ++ config.frameBytes 2 { recordType := 1, payload := inner }
    (resultAfter file 0).status = .failed ∧ (resultAfter file 0).error = .unexpectedSequence ∧
      (resultAfter file 1).status = .recordRead ∧ ¬ FailsForGood file := by
  intro config inner file
  have hfailed : (resultAfter file 0).status = .failed := by decide +kernel
  have hread : (resultAfter file 1).status = .recordRead := by decide +kernel
  exact ⟨hfailed, by decide +kernel, hread, fun h => h 0 1 Nat.zero_lt_one hfailed hread⟩

end WalSegmentReader

end Wal
