import MatchingEngine.Wal.Frames

/-!
# The scanner walks over the frames

A round of `scan` takes the next frame of the file, and the scan stops where the frames
end. Its offset is the one of the last frame boundary, unless the padding of the last
frame is missing.
-/

namespace Wal

open Framing InputStream

namespace WalSegmentScanner

/-- The offset that a stream at this place reports. -/
def offsetAt (file : List UInt8) (offset : ℕ) : ℕ :=
  if offset ≤ file.length then offset else 2 ^ 64 - 1

/-- How a scan ends when the frames end in this way. -/
def endAt (ending : Option WalError) (offset : ℕ) (result : WalSegmentScanResult) :
    WalSegmentScanResult :=
  match ending with
  | none => { result with lastValidOffset := offset }
  | some .incompleteTrailingRecord => incompleteAt offset result
  | some _ => corruptedAt offset result

/-- A round of the scan for each front of the unread part. -/
inductive RoundStep (file : List UInt8) (segment : WalSegmentHeader) (rounds offset : ℕ)
    (result : WalSegmentScanResult) :
    Front UInt64 WalRecordView WalError → WalSegmentScanResult → Prop where
  | done : RoundStep file segment rounds offset result .done
      (endAt none (offsetAt file offset) result)
  | stop (error : WalError) :
    RoundStep file segment rounds offset result (.stop error)
      (endAt (some error) (offsetAt file offset) result)
  | item (view : WalRecordView) (next : UInt64) (size : ℕ) {stream : InputStream}
    (hstream : Positioned file (offset + size) stream) :
    RoundStep file segment rounds offset result (.item view next size)
      (scanLoop file segment rounds next
        { result with
          lastValidPosition := view.header.position
          lastValidOffset := offsetAt file (offset + size) } stream)

variable {file : List UInt8} {segment : WalSegmentHeader} {offset : ℕ}

/-- Asking for the position before a round changes nothing. -/
theorem scanLoop_tellg (rounds : ℕ) (expected : UInt64) (result : WalSegmentScanResult)
    (stream : InputStream) :
    scanLoop file segment rounds expected result stream.tellg.2 =
      scanLoop file segment rounds expected result stream := by
  cases rounds with
  | zero => rfl
  | succ rounds => rw [scanLoop, scanLoop, tellg_tellg]

/-- The reported offset of a stream between two records. -/
theorem offsetOf_positioned {stream : InputStream} (hstream : Positioned file offset stream) :
    offsetOf stream.tellg.1 = offsetAt file offset := by
  rcases hstream with ⟨hoffset, _, rfl⟩ | ⟨hoffset, _, rfl⟩
  · rw [offsetAt, if_pos hoffset]
    rfl
  · rw [offsetAt, if_neg (Nat.not_le.mpr hoffset)]
    rfl

/-- The scanner's combined check is the reader's chain of checks. -/
theorem refused_iff {expected : UInt64} {header : WalRecordHeader} :
    (¬ header.hasValidStaticFields
        ∨ header.headerCrc ≠ header.calculateRecordHeaderCrc
        ∨ header.streamId ≠ segment.streamId
        ∨ header.epoch ≠ segment.epoch
        ∨ header.sequence ≠ expected) ↔ ∃ error, header.refusal segment expected = some error := by
  rw [← Option.ne_none_iff_exists']
  refine Iff.trans ?_ (not_congr WalRecordHeader.refusal_eq_none_iff.symm)
  tauto

/-- An error that is not a cut-off record makes the file corrupted. -/
theorem endAt_of_ne {error : WalError} (hne : error ≠ .incompleteTrailingRecord)
    (result : WalSegmentScanResult) :
    endAt (some error) offset result = corruptedAt offset result := by
  cases error <;> first | rfl | exact absurd rfl hne

/-- The part of a round behind the header checks, where `proceed` is the next round. -/
def scanPayload (file : List UInt8) (recordOffset : ℕ) (header : WalRecordHeader)
    (result : WalSegmentScanResult) (stream : InputStream)
    (proceed : WalSegmentScanResult → InputStream → WalSegmentScanResult) :
    WalSegmentScanResult :=
  let length := header.payloadLength.toNat
  let payload := if header.payloadLength ≠ 0 then stream.read file length else ([], stream)
  if header.payloadLength ≠ 0 ∧ payload.2.gcount ≠ length then incompleteAt recordOffset result
  else if calculateCrc32 payload.1 ≠ header.payloadCrc then corruptedAt recordOffset result
  else
    let stream := if header.padding ≠ 0
      then payload.2.ignore file header.padding.toInt64.toInt
      else payload.2
    if header.padding ≠ 0 ∧ stream.failed then incompleteAt recordOffset result
    else
      proceed
        { result with
          lastValidPosition := header.position
          lastValidOffset := offsetOf stream.tellg.1 } stream.tellg.2

/-- A round is the header checks and the part behind them. -/
theorem scanLoop_succ (rounds : ℕ) (expected : UInt64) (result : WalSegmentScanResult)
    (stream : InputStream) :
    scanLoop file segment (rounds + 1) expected result stream =
      let recordOffset := offsetOf stream.tellg.1
      let read := stream.tellg.2.read file recordHeaderSize
      let header := WalRecordHeader.ofBytes read.1
      if read.2.gcount = 0 ∧ read.2.eof then { result with lastValidOffset := recordOffset }
      else if read.2.gcount ≠ recordHeaderSize then incompleteAt recordOffset result
      else if ¬ header.hasValidStaticFields
          ∨ header.headerCrc ≠ header.calculateRecordHeaderCrc
          ∨ header.streamId ≠ segment.streamId
          ∨ header.epoch ≠ segment.epoch
          ∨ header.sequence ≠ expected then corruptedAt recordOffset result
      else scanPayload file recordOffset header result read.2
        (scanLoop file segment rounds (expected + 1)) := rfl

/-- A payload that is cut off ends the scan. -/
theorem scanPayload_of_lt {recordOffset gcount : ℕ} (header : WalRecordHeader)
    (hoffset : offset ≤ file.length)
    (hshort : file.length < offset + header.payloadLength.toNat) (result : WalSegmentScanResult)
    (proceed : WalSegmentScanResult → InputStream → WalSegmentScanResult) :
    scanPayload file recordOffset header result (reading offset gcount) proceed =
      incompleteAt recordOffset result := by
  unfold scanPayload
  rw [if_pos (payload_of_lt hoffset hshort rfl)]

/-- A payload inside the file is checked against its checksum, and the scan goes on
behind its padding. -/
theorem scanPayload_of_le (recordOffset gcount : ℕ) (header : WalRecordHeader)
    (hlong : offset + header.payloadLength.toNat ≤ file.length) (result : WalSegmentScanResult)
    (proceed : WalSegmentScanResult → InputStream → WalSegmentScanResult) :
    ∃ stream, scanPayload file recordOffset header result (reading offset gcount) proceed =
      (if calculateCrc32 ((file.drop offset).take header.payloadLength.toNat) ≠ header.payloadCrc
        then corruptedAt recordOffset result
        else proceed { result with
          lastValidPosition := header.position
          lastValidOffset := offsetOf stream.tellg.1 } stream.tellg.2) ∧
      Positioned file
        (offset + header.payloadLength.toNat + header.padding.toInt64.toInt.toNat) stream := by
  obtain ⟨hcomplete, gcount', hread⟩ := payload_of_le gcount hlong rfl
  obtain ⟨hpositioned, hgood⟩ := skip_positioned gcount' hlong header rfl
  refine ⟨_, ?_, hpositioned⟩
  unfold scanPayload
  simp only [hread] at hcomplete ⊢
  rw [if_neg hcomplete]
  congr 1
  rw [if_neg fun h => by rw [hgood] at h; exact absurd h.2 (by decide)]

/-- A round that finds a whole header goes on behind it, unless the header is refused. -/
theorem scanLoop_of_le (segment : WalSegmentHeader) (rounds : ℕ) (expected : UInt64)
    (result : WalSegmentScanResult) (gcount : ℕ) {header : WalRecordHeader}
    (hlong : offset + recordHeaderSize ≤ file.length)
    (hheader : header = WalRecordHeader.ofBytes ((file.drop offset).take recordHeaderSize)) :
    scanLoop file segment (rounds + 1) expected result (reading offset gcount) =
      match header.refusal segment expected with
      | some _ => corruptedAt (offsetAt file offset) result
      | none => scanPayload file (offsetAt file offset) header result
          (reading (offset + recordHeaderSize) recordHeaderSize)
          (scanLoop file segment rounds (expected + 1)) := by
  have hoffset : offsetOf (some offset) = offsetAt file offset := (if_pos (by omega)).symm
  have hcount : (reading (offset + recordHeaderSize) recordHeaderSize).gcount =
      recordHeaderSize := rfl
  rw [scanLoop_succ, tellg_reading, read_of_le hlong]
  simp only [← hheader, hcount, hoffset]
  rw [if_neg (by simp [recordHeaderSize]), if_neg (not_not.mpr rfl)]
  cases hrefusal : header.refusal segment expected with
  | some error => exact if_pos (refused_iff.mpr ⟨error, hrefusal⟩)
  | none => exact if_neg (mt refused_iff.mp (by simp [hrefusal]))

/-- A round that finds a part of a header or nothing ends the scan. -/
theorem scanLoop_of_lt (segment : WalSegmentHeader) (rounds : ℕ) (expected : UInt64)
    (result : WalSegmentScanResult) (gcount : ℕ) (hoffset : offset ≤ file.length)
    (hshort : file.length < offset + recordHeaderSize) :
    scanLoop file segment (rounds + 1) expected result (reading offset gcount) =
      if file.length - offset = 0 then { result with lastValidOffset := offsetAt file offset }
      else incompleteAt (offsetAt file offset) result := by
  have hoffsetOf : offsetOf (some offset) = offsetAt file offset := (if_pos hoffset).symm
  have hcount : file.length - offset ≠ recordHeaderSize := by omega
  rw [scanLoop_succ, tellg_reading, read_of_lt hoffset hshort]
  simp only [and_true, hoffsetOf, if_pos hcount]

/-- A round takes the next frame. -/
theorem scanLoop_step (segment : WalSegmentHeader) {stream : InputStream}
    (hstream : Positioned file offset stream) (rounds : ℕ) (expected : UInt64)
    (result : WalSegmentScanResult) :
    RoundStep file segment rounds offset result (frontAt segment expected (file.drop offset))
      (scanLoop file segment (rounds + 1) expected result stream) := by
  have hcase := frontAt_case segment expected (file.drop offset)
  rcases hstream with ⟨hoffset, gcount, rfl⟩ | ⟨hoffset, gcount, rfl⟩
  · have hlength : (file.drop offset).length = file.length - offset := List.length_drop
    have hdrop : (file.drop offset).drop recordHeaderSize =
        file.drop (offset + recordHeaderSize) := List.drop_drop
    generalize frontAt segment expected (file.drop offset) = front at hcase ⊢
    cases hcase with
    | done hempty =>
      rw [hempty, List.length_nil] at hlength
      have hpositive : 0 < recordHeaderSize := by decide
      rw [scanLoop_of_lt segment rounds expected result gcount hoffset (by omega),
        if_pos hlength.symm]
      exact .done
    | torn hne hshort =>
      have hsome : file.length - offset ≠ 0 := by
        rw [← hlength]
        exact fun h => hne (List.length_eq_zero_iff.mp h)
      rw [scanLoop_of_lt segment rounds expected result gcount hoffset (by omega), if_neg hsome]
      exact .stop .incompleteTrailingRecord
    | refused hlong hheader hrefusal =>
      rw [scanLoop_of_le segment rounds expected result gcount (by omega) hheader, hrefusal]
      dsimp only
      rw [← endAt_of_ne (WalRecordHeader.refusal_ne_incomplete hrefusal)]
      exact .stop _
    | @tornPayload header hlong hheader haccepted hshort =>
      rw [scanLoop_of_le segment rounds expected result gcount (by omega) hheader, haccepted]
      dsimp only
      rw [scanPayload_of_lt header (by omega) (by omega)]
      exact .stop .incompleteTrailingRecord
    | @mismatch header payload hheader haccepted hlong hpayload hchecksum =>
      have hinside : offset + recordHeaderSize + header.payloadLength.toNat ≤ file.length := by
        omega
      obtain ⟨stream, hscan, -⟩ := scanPayload_of_le (offsetAt file offset) recordHeaderSize
        header hinside result (scanLoop file segment rounds (expected + 1))
      rw [hdrop] at hpayload
      rw [scanLoop_of_le segment rounds expected result gcount (by omega) hheader, haccepted]
      dsimp only
      rw [hscan, ← hpayload, if_pos hchecksum]
      exact .stop .payloadChecksumMismatch
    | @item header payload hheader haccepted hlong hpayload hchecksum =>
      have hinside : offset + recordHeaderSize + header.payloadLength.toNat ≤ file.length := by
        omega
      obtain ⟨stream, hscan, hpositioned⟩ := scanPayload_of_le (offsetAt file offset)
        recordHeaderSize header hinside result (scanLoop file segment rounds (expected + 1))
      have hsize : offset + recordHeaderSize + header.payloadLength.toNat +
          header.padding.toInt64.toInt.toNat = offset + header.frameSize := by
        unfold WalRecordHeader.frameSize
        omega
      rw [hsize] at hpositioned
      rw [hdrop] at hpayload
      rw [scanLoop_of_le segment rounds expected result gcount (by omega) hheader, haccepted]
      dsimp only
      rw [hscan, ← hpayload, if_neg (not_not.mpr hchecksum), offsetOf_positioned hpositioned,
        scanLoop_tellg]
      exact .item { header := header, payload := payload } _ _ hpositioned
  · have hempty : file.drop offset = [] := List.drop_eq_nil_of_le hoffset.le
    have hfront : frontAt segment expected (file.drop offset) = .done := by
      rw [frontAt, if_pos hempty]
    rw [hfront, scanLoop_succ, offsetOf_positioned (.inr ⟨hoffset, gcount, rfl⟩), read_tellg_past]
    exact .done

/-- The scan of the rest of a file ends like its frames. -/
theorem scanLoop_of_frames {views : List WalRecordView} {size : ℕ} {ending : Option WalError}
    {expected : UInt64} {input : List UInt8}
    (hframes : Frames segment expected input views size ending) (hinput : file.drop offset = input)
    {stream : InputStream} (hstream : Positioned file offset stream) {rounds : ℕ}
    (hrounds : views.length < rounds) (result : WalSegmentScanResult) :
    scanLoop file segment rounds expected result stream =
      endAt ending (offsetAt file (offset + size))
        { result with lastValidPosition := lastOf result.lastValidPosition views } := by
  induction hframes generalizing offset stream rounds result with
  | @done expected input hfront =>
    obtain ⟨rounds, rfl⟩ := Nat.exists_eq_add_one_of_ne_zero (Nat.ne_zero_of_lt hrounds)
    have hstep := scanLoop_step segment hstream rounds expected result
    rw [hinput, hfront] at hstep
    generalize scanLoop file segment (rounds + 1) expected result stream = outcome at hstep ⊢
    cases hstep
    rfl
  | @stop expected input error hfront =>
    obtain ⟨rounds, rfl⟩ := Nat.exists_eq_add_one_of_ne_zero (Nat.ne_zero_of_lt hrounds)
    have hstep := scanLoop_step segment hstream rounds expected result
    rw [hinput, hfront] at hstep
    generalize scanLoop file segment (rounds + 1) expected result stream = outcome at hstep ⊢
    cases hstep
    rfl
  | @item expected next input view size views rest ending hfront hrest ih =>
    obtain ⟨rounds, rfl⟩ := Nat.exists_eq_add_one_of_ne_zero (Nat.ne_zero_of_lt hrounds)
    have hstep := scanLoop_step segment hstream rounds expected result
    rw [hinput, hfront] at hstep
    generalize scanLoop file segment (rounds + 1) expected result stream = outcome at hstep ⊢
    cases hstep with
    | @item _ _ _ stream hpositioned =>
      have hdrop : file.drop (offset + size) = input.drop size := by
        rw [← hinput, List.drop_drop]
      rw [ih hdrop hpositioned (Nat.lt_of_succ_lt_succ hrounds), lastOf_cons, Nat.add_assoc]
      cases ending with
      | none => rfl
      | some error => cases error <;> rfl

/-- The scan of a segment with a valid header. -/
theorem scan_of_frames (hvalid : SegmentHeaderValid file) {views : List WalRecordView}
    {size : ℕ} {ending : Option WalError}
    (hframes : Frames (segmentHeaderOf file) (segmentHeaderOf file).firstSequence
      (file.drop segmentHeaderSize) views size ending) :
    scan (.file file) = endAt ending (offsetAt file (segmentHeaderSize + size))
      { ok := true
        lastValidPosition := lastOf {} views
        lastValidOffset := segmentHeaderSize } := by
  have hread := read_segmentHeader hvalid.complete
  have hheader : WalSegmentHeader.ofBytes (file.take segmentHeaderSize) = segmentHeaderOf file :=
    rfl
  have hcount : (reading segmentHeaderSize segmentHeaderSize).gcount = segmentHeaderSize := rfl
  have hrounds : views.length < file.length + 1 := by
    have hlength := hframes.length_le (frontAt_progress _)
    rw [List.length_drop] at hlength
    omega
  unfold scan
  simp only [FileEntry.openRead, hread, hheader, hcount]
  rw [if_neg fun h => h.elim (fun h => h rfl) fun h => h hvalid.fields,
    if_neg (not_not.mpr hvalid.checksum)]
  exact scanLoop_of_frames hframes rfl (.inl ⟨hvalid.complete, _, rfl⟩) hrounds _

/-- The scan of a file without a valid segment header. -/
theorem scan_of_invalid (hinvalid : ¬ SegmentHeaderValid file) :
    ∃ error, (error = .invalidSegmentHeader ∨ error = .headerChecksumMismatch) ∧
      scan (.file file) = { ok := false, error := error } := by
  unfold scan
  simp only [FileEntry.openRead]
  rcases Nat.lt_or_ge file.length segmentHeaderSize with hshort | hlong
  · have hread : InputStream.read file segmentHeaderSize {} = (file,
        { position := file.length, eof := true, fail := true, gcount := file.length - 0 }) :=
      read_of_lt (Nat.zero_le _) (by rw [Nat.zero_add]; exact hshort)
    have hcount : (InputStream.read file segmentHeaderSize {}).2.gcount ≠ segmentHeaderSize := by
      rw [hread]
      exact Nat.ne_of_lt hshort
    rw [if_pos (.inl hcount)]
    exact ⟨_, .inl rfl, rfl⟩
  · rw [read_segmentHeader hlong]
    split
    · exact ⟨_, .inl rfl, rfl⟩
    next hfields =>
    split
    · exact ⟨_, .inr rfl, rfl⟩
    next hchecksum =>
    rw [not_or, not_not, not_not] at hfields
    exact absurd ⟨hlong, hfields.2, not_not.mp hchecksum⟩ hinvalid

end WalSegmentScanner

end Wal
