import MatchingEngine.Wal.Recovery
import MatchingEngine.Wal.Sessions

/-!
# Read errors during recovery

The scanner tells an error from the end of the file only where a record may begin and no
byte of it was read. Anywhere else in a record an error looks as if the record were cut
off, and recovery and the writer cut the file off there.
-/

namespace Wal

open Framing InputStream

/-- `recover_wal_segment` on a device with errors. -/
def recoverWalSegmentWith (faults : List (Option ℕ)) (entry : FileEntry) :
    WalRecoveryResult × FileEntry :=
  let scanResult := WalSegmentScanner.scan entry faults
  if scanResult.ok then
    ({ ok := true
       error := .none
       lastValidPosition := scanResult.lastValidPosition
       lastValidOffset := scanResult.lastValidOffset
       recoveredIncompleteTail := false }, entry)
  else if scanResult.error = .incompleteTrailingRecord then
    ({ ok := true
       error := .none
       lastValidPosition := scanResult.lastValidPosition
       lastValidOffset := scanResult.lastValidOffset
       recoveredIncompleteTail := true }, entry.resize scanResult.lastValidOffset)
  else
    ({ ok := false
       error := scanResult.error
       lastValidPosition := scanResult.lastValidPosition
       lastValidOffset := scanResult.lastValidOffset
       recoveredIncompleteTail := false }, entry)

/-- Without errors this is the recovery of the other files. -/
theorem recoverWalSegmentWith_nil (entry : FileEntry) :
    recoverWalSegmentWith [] entry = recoverWalSegment entry := rfl

/-- The requests of a scan for the payload of a record. -/
def WalRecordHeader.payloadRequests (h : WalRecordHeader) : ℕ :=
  if h.payloadLength ≠ 0 then 1 else 0

/-- The requests of a scan for the padding of a record. -/
def WalRecordHeader.paddingRequests (h : WalRecordHeader) : ℕ :=
  if 0 < h.padding.toInt64.toInt then 1 else 0

/-- The requests of a scan for a record. -/
def WalRecordHeader.requests (h : WalRecordHeader) : ℕ :=
  1 + (h.payloadRequests + h.paddingRequests)

/-- The requests of a scan for records. -/
def requestsFor : List WalRecordView → ℕ
  | [] => 0
  | view :: views => view.header.requests + requestsFor views

/-- A segment that consists of a valid header and complete valid records. -/
structure CompleteSegment (file : List UInt8) (views : List WalRecordView) : Prop where
  header : SegmentHeaderValid file
  records : Frames (segmentHeaderOf file) (segmentHeaderOf file).firstSequence
    (file.drop segmentHeaderSize) views (file.length - segmentHeaderSize) none

/-- None of the requests for the records meets an error, unless the request for the segment
header does. -/
def RecordsRead (views : List WalRecordView) (faults : List (Option ℕ)) : Prop :=
  Clean 1 faults → Clean (requestsFor views) (faults.drop 1)

instance (views : List WalRecordView) (faults : List (Option ℕ)) :
    Decidable (RecordsRead views faults) :=
  inferInstanceAs (Decidable (_ → _))

/-- The bytes of the file are still there. -/
def Kept (file : List UInt8) (entry : FileEntry) : Prop :=
  ∃ bytes, entry = .file bytes ∧ file <+: bytes

/-! ## One record -/

namespace WalSegmentScanner

variable {file : List UInt8} {segment : WalSegmentHeader} {offset : ℕ} {faults : List (Option ℕ)}

/-- A payload inside the file is read if its request meets no error. -/
theorem payload_with_faults (gcount : ℕ) {header : WalRecordHeader}
    (hlong : offset + header.payloadLength.toNat ≤ file.length) {read : List UInt8 × InputStream}
    (hread : read = if header.payloadLength ≠ 0
      then (readingWith offset gcount faults).read file header.payloadLength.toNat
      else ([], readingWith offset gcount faults)) :
    if Clean header.payloadRequests faults then
      ¬ (header.payloadLength ≠ 0 ∧ read.2.gcount ≠ header.payloadLength.toNat) ∧
        ∃ gcount', read = ((file.drop offset).take header.payloadLength.toNat,
          readingWith (offset + header.payloadLength.toNat) gcount'
            (faults.drop header.payloadRequests))
    else header.payloadLength ≠ 0 ∧ read.2.gcount ≠ header.payloadLength.toNat := by
  unfold WalRecordHeader.payloadRequests
  by_cases hzero : header.payloadLength = 0
  · rw [if_neg (not_not.mpr hzero)] at hread
    rw [if_neg (not_not.mpr hzero), if_pos clean_zero]
    refine ⟨fun h => h.1 hzero, gcount, ?_⟩
    rw [hread, hzero]
    rfl
  · have hpos : 0 < header.payloadLength.toNat := by
      rw [Nat.pos_iff_ne_zero]
      exact fun h => hzero (UInt32.toNat_inj.mp h)
    rw [if_pos hzero] at hread
    rw [if_pos hzero, hread]
    split
    · rename_i hclean
      rw [read_of_clean hclean hlong]
      exact ⟨fun h => h.2 rfl, _, rfl⟩
    · rename_i hfaulty
      exact ⟨hzero, (read_of_not_clean hfaulty hpos).1.ne⟩

/-- Padding inside the file is skipped if its request meets no error. -/
theorem padding_with_faults (gcount : ℕ) {header : WalRecordHeader}
    (hlong : offset + header.padding.toInt64.toInt.toNat ≤ file.length) {stream : InputStream}
    (hstream : stream = if header.padding ≠ 0
      then (readingWith offset gcount faults).ignore file header.padding.toInt64.toInt
      else readingWith offset gcount faults) :
    if Clean header.paddingRequests faults then
      stream.failed = false ∧
        ∃ gcount', stream = readingWith (offset + header.padding.toInt64.toInt.toNat) gcount'
          (faults.drop header.paddingRequests)
    else header.padding ≠ 0 ∧ stream.failed = true := by
  unfold WalRecordHeader.paddingRequests
  by_cases hzero : header.padding = 0
  · have hnone : ¬ 0 < header.padding.toInt64.toInt := by
      rw [hzero]
      decide
    rw [if_neg (not_not.mpr hzero)] at hstream
    rw [if_neg hnone, if_pos clean_zero, hstream, hzero]
    exact ⟨rfl, gcount, rfl⟩
  · rw [if_pos hzero] at hstream
    generalize header.padding.toInt64.toInt = count at hstream hlong ⊢
    rcases Int.lt_or_le 0 count with hpos | hneg
    · obtain ⟨count, rfl⟩ := Int.eq_ofNat_of_zero_le hpos.le
      have hcount : 0 < count := Int.natCast_pos.mp hpos
      rw [Int.toNat_natCast] at hlong ⊢
      rw [if_pos hpos, hstream]
      split
      · rename_i hclean
        rw [ignore_of_clean hclean hcount hlong]
        exact ⟨rfl, _, rfl⟩
      · rename_i hfaulty
        exact ⟨hzero, ignore_of_not_clean hfaulty hcount⟩
    · rw [if_neg hneg.not_gt, if_pos clean_zero, hstream, ignore_readingWith_of_nonpos hneg,
        Int.toNat_of_nonpos hneg]
      exact ⟨rfl, 0, rfl⟩

/-- Behind the header checks a round of a scan reaches the next record if the requests for
the payload and the padding meet no error. -/
theorem scanPayload_with_faults (recordOffset gcount : ℕ) {header : WalRecordHeader}
    (hlong : offset + header.payloadLength.toNat + header.padding.toInt64.toInt.toNat ≤
      file.length)
    (hchecksum : calculateCrc32 ((file.drop offset).take header.payloadLength.toNat) =
      header.payloadCrc)
    (result : WalSegmentScanResult)
    (proceed : WalSegmentScanResult → InputStream → WalSegmentScanResult) :
    if Clean (header.payloadRequests + header.paddingRequests) faults then
      ∃ gcount', scanPayload file recordOffset header result (readingWith offset gcount faults)
          proceed =
        proceed
          { result with
            lastValidPosition := header.position
            lastValidOffset :=
              offset + header.payloadLength.toNat + header.padding.toInt64.toInt.toNat }
          (readingWith (offset + header.payloadLength.toNat + header.padding.toInt64.toInt.toNat)
            gcount' (faults.drop (header.payloadRequests + header.paddingRequests)))
    else scanPayload file recordOffset header result (readingWith offset gcount faults) proceed =
      incompleteAt recordOffset result := by
  have hread := @payload_with_faults file offset faults gcount header
    (Nat.le_of_add_right_le hlong) _ rfl
  unfold scanPayload
  dsimp only
  by_cases hpayload : Clean header.payloadRequests faults
  · rw [if_pos hpayload] at hread
    obtain ⟨hcomplete, gcount', hread⟩ := hread
    rw [if_neg hcomplete, hread, if_neg (not_not.mpr hchecksum)]
    have hskip := @padding_with_faults file _ (faults.drop header.payloadRequests) gcount' header
      hlong _ rfl
    by_cases hpadding : Clean header.paddingRequests (faults.drop header.payloadRequests)
    · rw [if_pos hpadding] at hskip
      obtain ⟨hgood, gcount'', hskip⟩ := hskip
      rw [if_pos (clean_add.mpr ⟨hpayload, hpadding⟩), hgood, hskip, List.drop_drop]
      exact ⟨gcount'', if_neg fun h => Bool.false_ne_true h.2⟩
    · rw [if_neg hpadding] at hskip
      rw [if_neg fun h => hpadding (clean_add.mp h).2, if_pos hskip]
  · rw [if_neg hpayload] at hread
    rw [if_neg fun h => hpayload (clean_add.mp h).1, if_pos hread]

/-- A request for a record header that meets an error looks like a record that is cut off. -/
theorem scanLoop_of_not_clean (hfaulty : ¬ Clean 1 faults) (rounds gcount : ℕ) (expected : UInt64)
    (result : WalSegmentScanResult) :
    scanLoop file segment (rounds + 1) expected result (readingWith offset gcount faults) =
      incompleteAt offset result := by
  obtain ⟨hshort, hend⟩ := @read_of_not_clean file offset gcount recordHeaderSize faults hfaulty
    (by decide)
  rw [scanLoop_succ, tellg_readingWith]
  dsimp only
  rw [if_neg fun h => by rw [hend] at h; exact Bool.false_ne_true h.2, if_pos hshort.ne]
  rfl

/-- A round of a scan whose request for a record header meets no error goes on behind the
header, unless the header is refused. -/
theorem scanLoop_of_clean (hclean : Clean 1 faults) {header : WalRecordHeader}
    (hlong : offset + recordHeaderSize ≤ file.length)
    (hheader : header = WalRecordHeader.ofBytes ((file.drop offset).take recordHeaderSize))
    (rounds gcount : ℕ) (expected : UInt64) (result : WalSegmentScanResult) :
    scanLoop file segment (rounds + 1) expected result (readingWith offset gcount faults) =
      match header.refusal segment expected with
      | some _ => corruptedAt offset result
      | none => scanPayload file offset header result
          (readingWith (offset + recordHeaderSize) recordHeaderSize (faults.drop 1))
          (scanLoop file segment rounds (expected + 1)) := by
  have hcount : (readingWith (offset + recordHeaderSize) recordHeaderSize
      (faults.drop 1)).gcount = recordHeaderSize := rfl
  rw [scanLoop_succ, tellg_readingWith]
  dsimp only
  rw [read_of_clean hclean hlong, ← hheader]
  dsimp only
  rw [hcount, if_neg (by simp [recordHeaderSize]), if_neg (not_not.mpr rfl)]
  cases hrefusal : header.refusal segment expected with
  | some error => exact if_pos (refused_iff.mpr ⟨error, hrefusal⟩)
  | none => exact if_neg (mt refused_iff.mp (by simp [hrefusal]))

/-- A round of a scan reaches the next record if the requests for the record meet no error. -/
theorem scanLoop_step_with_faults {expected next : UInt64} {view : WalRecordView} {size : ℕ}
    (hfront : frontAt segment expected (file.drop offset) = .item view next size)
    (hinside : offset + size ≤ file.length) (rounds gcount : ℕ) (result : WalSegmentScanResult) :
    if Clean view.header.requests faults then
      ∃ gcount', scanLoop file segment (rounds + 1) expected result
          (readingWith offset gcount faults) =
        scanLoop file segment rounds next
          { result with
            lastValidPosition := view.header.position
            lastValidOffset := offset + size }
          (readingWith (offset + size) gcount' (faults.drop view.header.requests))
    else scanLoop file segment (rounds + 1) expected result (readingWith offset gcount faults) =
      incompleteAt offset result := by
  have hcase := frontAt_case segment expected (file.drop offset)
  rw [hfront] at hcase
  cases hcase with
  | @item header payload hheader haccepted hlong hpayload hchecksum =>
    rw [List.length_drop] at hlong
    rw [List.drop_drop] at hpayload
    have hsize : offset + recordHeaderSize + header.payloadLength.toNat +
        header.padding.toInt64.toInt.toNat = offset + header.frameSize := by
      unfold WalRecordHeader.frameSize
      omega
    dsimp only
    by_cases hclean : Clean 1 faults
    · have hround : scanLoop file segment (rounds + 1) expected result
          (readingWith offset gcount faults) =
          scanPayload file offset header result
            (readingWith (offset + recordHeaderSize) recordHeaderSize (faults.drop 1))
            (scanLoop file segment rounds (expected + 1)) := by
        rw [scanLoop_of_clean hclean (by omega) hheader, haccepted]
      have hrest := @scanPayload_with_faults file _ (faults.drop 1) offset recordHeaderSize header
        (by rw [hsize]; exact hinside) (hpayload ▸ hchecksum) result
        (scanLoop file segment rounds (expected + 1))
      rw [hsize, ← hround, List.drop_drop] at hrest
      by_cases hbehind : Clean (header.payloadRequests + header.paddingRequests) (faults.drop 1)
      · rw [if_pos hbehind] at hrest
        exact (if_pos (clean_add.mpr ⟨hclean, hbehind⟩)).mpr hrest
      · rw [if_neg hbehind] at hrest
        exact (if_neg fun h => hbehind (clean_add.mp h).2).mpr hrest
    · exact (if_neg fun h => hclean (clean_add.mp h).1).mpr
        (scanLoop_of_not_clean hclean rounds gcount expected result)

/-! ## All records -/

/-- The scan makes its callers cut the file off at the offset. -/
structure CutsAt (offset : ℕ) (result : WalSegmentScanResult) : Prop where
  ok : result.ok = false
  error : result.error = .incompleteTrailingRecord
  lastValidOffset : result.lastValidOffset = offset

theorem cutsAt_incompleteAt (offset : ℕ) (result : WalSegmentScanResult) :
    CutsAt offset (incompleteAt offset result) := ⟨rfl, rfl, rfl⟩

/-- The scan leaves the file to its callers as it is, or cuts off nothing. -/
def CutsNothing (file : List UInt8) (result : WalSegmentScanResult) : Prop :=
  (result.ok = true ∧ result.error = .none) ∨ CutsAt file.length result

/-- At the end of the file an error is harmless. -/
theorem scanLoop_at_end (rounds gcount : ℕ) (expected : UInt64) {result : WalSegmentScanResult}
    (hok : result.ok = true) (herror : result.error = .none) :
    CutsNothing file (scanLoop file segment (rounds + 1) expected result
      (readingWith file.length gcount faults)) := by
  by_cases hclean : Clean 1 faults
  · obtain ⟨hcount, hend⟩ := @read_end_of_clean file gcount recordHeaderSize faults hclean
      (by decide)
    rw [scanLoop_succ, tellg_readingWith]
    dsimp only
    rw [if_pos ⟨hcount, hend⟩]
    exact .inl ⟨hok, herror⟩
  · rw [scanLoop_of_not_clean hclean]
    exact .inr (cutsAt_incompleteAt _ _)

/-- The scan of complete records cuts nothing off if none of the requests for them meets an
error, and else it cuts a record off. -/
theorem scanLoop_of_complete {views : List WalRecordView} {size : ℕ} {expected : UInt64}
    {input : List UInt8} {ending : Option WalError}
    (hframes : Frames segment expected input views size ending) (hending : ending = none)
    (hinput : file.drop offset = input) (hend : offset + size = file.length)
    {faults : List (Option ℕ)} {rounds : ℕ} (gcount : ℕ) (hrounds : views.length < rounds)
    {result : WalSegmentScanResult} (hok : result.ok = true) (herror : result.error = .none) :
    if Clean (requestsFor views) faults then
      CutsNothing file
        (scanLoop file segment rounds expected result (readingWith offset gcount faults))
    else ∃ cut < file.length, CutsAt cut
      (scanLoop file segment rounds expected result (readingWith offset gcount faults)) := by
  induction hframes generalizing offset faults rounds gcount result with
  | done =>
    obtain ⟨rounds, rfl⟩ := Nat.exists_eq_add_one_of_ne_zero (Nat.ne_zero_of_lt hrounds)
    obtain rfl : offset = file.length := by omega
    rw [requestsFor, if_pos clean_zero]
    exact scanLoop_at_end rounds gcount _ hok herror
  | stop => cases hending
  | @item expected next input view size views rest ending hfront hrest ih =>
    obtain ⟨rounds, rfl⟩ := Nat.exists_eq_add_one_of_ne_zero (Nat.ne_zero_of_lt hrounds)
    obtain ⟨hpos, -⟩ := frontAt_progress segment _ _ _ _ _ hfront
    rw [← hinput] at hfront
    have hstep := @scanLoop_step_with_faults file segment offset faults _ _ _ _ hfront (by omega)
      rounds gcount result
    by_cases hclean : Clean view.header.requests faults
    · rw [if_pos hclean] at hstep
      obtain ⟨gcount', hstep⟩ := hstep
      rw [hstep]
      have hlater := @ih (offset + size) hending (by rw [← hinput, List.drop_drop]) (by omega)
        (faults.drop view.header.requests) rounds gcount' (Nat.lt_of_succ_lt_succ hrounds)
        { result with
          lastValidPosition := view.header.position
          lastValidOffset := offset + size } hok herror
      by_cases hbehind : Clean (requestsFor views) (faults.drop view.header.requests)
      · rw [if_pos hbehind] at hlater
        exact (if_pos (clean_add.mpr ⟨hclean, hbehind⟩)).mpr hlater
      · rw [if_neg hbehind] at hlater
        exact (if_neg fun h => hbehind (clean_add.mp h).2).mpr hlater
    · rw [if_neg hclean] at hstep
      rw [hstep]
      exact (if_neg fun h => hclean (clean_add.mp h).1).mpr
        ⟨offset, by omega, cutsAt_incompleteAt _ _⟩

/-- A scan whose request for the segment header meets an error finds no segment. -/
theorem scan_of_not_clean (hfaulty : ¬ Clean 1 faults) :
    scan (.file file) faults = { ok := false, error := .invalidSegmentHeader } := by
  have hshort := (@read_of_not_clean file 0 0 segmentHeaderSize faults hfaulty (by decide)).1
  unfold scan
  dsimp only [FileEntry.openRead]
  exact if_pos (.inl hshort.ne)

/-- A scan whose request for a valid segment header meets no error goes on to the records. -/
theorem scan_of_clean (hvalid : SegmentHeaderValid file) (hclean : Clean 1 faults) :
    scan (.file file) faults =
      scanLoop file (segmentHeaderOf file) (file.length + 1) (segmentHeaderOf file).firstSequence
        { ok := true, error := .none, lastValidOffset := segmentHeaderSize }
        (readingWith segmentHeaderSize segmentHeaderSize (faults.drop 1)) := by
  have hread : InputStream.read file segmentHeaderSize { faults := faults } =
      (file.take segmentHeaderSize, readingWith segmentHeaderSize segmentHeaderSize
        (faults.drop 1)) := by
    have h := @read_of_clean file 0 0 segmentHeaderSize faults hclean (by
      rw [Nat.zero_add]; exact hvalid.complete)
    rwa [Nat.zero_add, List.drop_zero] at h
  have hheader : WalSegmentHeader.ofBytes (file.take segmentHeaderSize) = segmentHeaderOf file :=
    rfl
  have hcount : (readingWith segmentHeaderSize segmentHeaderSize
      (faults.drop 1)).gcount = segmentHeaderSize := rfl
  unfold scan
  simp only [FileEntry.openRead, hread, hheader, hcount]
  rw [if_neg fun h => h.elim (fun h => h rfl) fun h => h hvalid.fields,
    if_neg (not_not.mpr hvalid.checksum)]

/-- What a scan of complete records tells its callers. -/
theorem scan_with_faults {views : List WalRecordView} (hsegment : CompleteSegment file views)
    (faults : List (Option ℕ)) :
    if RecordsRead views faults then
      CutsNothing file (scan (.file file) faults) ∨
        scan (.file file) faults = { ok := false, error := .invalidSegmentHeader }
    else ∃ cut < file.length, CutsAt cut (scan (.file file) faults) := by
  have hcomplete := hsegment.header.complete
  by_cases hclean : Clean 1 faults
  · have hrounds : views.length < file.length + 1 := by
      have hlength := hsegment.records.length_le (frontAt_progress _)
      rw [List.length_drop] at hlength
      omega
    have hloop := @scanLoop_of_complete file _ _ _ _ _ _ _ hsegment.records rfl rfl (by omega)
      (faults.drop 1) _ segmentHeaderSize hrounds
      { ok := true, error := .none, lastValidOffset := segmentHeaderSize } rfl rfl
    rw [← scan_of_clean hsegment.header hclean] at hloop
    by_cases hrecords : Clean (requestsFor views) (faults.drop 1)
    · have hread : RecordsRead views faults := fun _ => hrecords
      rw [if_pos hrecords] at hloop
      rw [if_pos hread]
      exact .inl hloop
    · have hread : ¬ RecordsRead views faults := fun h => hrecords (h hclean)
      rw [if_neg hrecords] at hloop
      rw [if_neg hread]
      exact hloop
  · have hread : RecordsRead views faults := fun h => absurd h hclean
    rw [if_pos hread]
    exact .inr (scan_of_not_clean hclean)

end WalSegmentScanner

/-! ## Recovery and writers -/

variable {file : List UInt8} {views : List WalRecordView}

theorem kept_self (file : List UInt8) : Kept file (.file file) := ⟨file, rfl, List.prefix_rfl⟩

/-- Cutting the file off inside loses bytes. -/
theorem kept_resize_iff {size : ℕ} (hsize : size ≤ file.length) :
    Kept file ((FileEntry.file file).resize size) ↔ size = file.length := by
  rw [FileEntry.resize, List.takeD_eq_take _ hsize]
  constructor
  · rintro ⟨bytes, hbytes, hprefix⟩
    cases hbytes
    have hlength := hprefix.length_le
    rw [List.length_take] at hlength
    omega
  · rintro rfl
    rw [List.take_length]
    exact kept_self file

/-- A caller that cuts the file off where the scan says so, keeps it if the scan reads the
records. -/
theorem kept_cut_iff (hsegment : CompleteSegment file views) (faults : List (Option ℕ)) :
    Kept file (if (WalSegmentScanner.scan (.file file) faults).error = .incompleteTrailingRecord
        then (FileEntry.file file).resize
          (WalSegmentScanner.scan (.file file) faults).lastValidOffset
        else .file file) ↔ RecordsRead views faults := by
  have hscan := WalSegmentScanner.scan_with_faults hsegment faults
  by_cases hread : RecordsRead views faults
  · rw [if_pos hread] at hscan
    refine iff_of_true ?_ hread
    rcases hscan with (⟨-, herror⟩ | hcut) | hheader
    · rw [herror, if_neg WalError.noConfusion]
      exact kept_self file
    · rw [if_pos hcut.error, hcut.lastValidOffset]
      exact (kept_resize_iff le_rfl).mpr rfl
    · rw [hheader, if_neg WalError.noConfusion]
      exact kept_self file
  · rw [if_neg hread] at hscan
    obtain ⟨cut, hcut, hscan⟩ := hscan
    rw [if_pos hscan.error, hscan.lastValidOffset]
    exact iff_of_false (fun h => hcut.ne ((kept_resize_iff hcut.le).mp h)) hread

/-- Recovery keeps complete records if it reads them. -/
theorem recover_kept_iff (hsegment : CompleteSegment file views) (faults : List (Option ℕ)) :
    Kept file (recoverWalSegmentWith faults (.file file)).2 ↔ RecordsRead views faults := by
  have hok : (WalSegmentScanner.scan (.file file) faults).error = .incompleteTrailingRecord →
      (WalSegmentScanner.scan (.file file) faults).ok ≠ true := by
    intro herror hok
    have hscan := WalSegmentScanner.scan_with_faults hsegment faults
    split at hscan
    · rcases hscan with (⟨-, hnone⟩ | hcut) | hheader
      · exact absurd (hnone.symm.trans herror) WalError.noConfusion
      · exact Bool.false_ne_true (hcut.ok.symm.trans hok)
      · rw [hheader] at hok
        exact Bool.false_ne_true hok
    · obtain ⟨cut, -, hcut⟩ := hscan
      exact Bool.false_ne_true (hcut.ok.symm.trans hok)
  rw [← kept_cut_iff hsegment faults]
  unfold recoverWalSegmentWith
  dsimp only
  by_cases herror :
      (WalSegmentScanner.scan (.file file) faults).error = .incompleteTrailingRecord
  · rw [if_neg (hok herror), if_pos herror, if_pos herror]
  · rw [if_neg herror, if_neg herror]
    split <;> rfl

/-- The configuration of a writer is the one of the segment. -/
def WalWriterConfig.Matches (config : WalWriterConfig) (header : WalSegmentHeader) : Prop :=
  header.streamId = config.streamId ∧ header.epoch = config.epoch ∧
    header.firstSequence = config.firstSequence

instance (config : WalWriterConfig) (header : WalSegmentHeader) :
    Decidable (config.Matches header) :=
  inferInstanceAs (Decidable (_ ∧ _))

namespace WalSegmentWriter

/-- Preparing an existing segment cuts it off where the scan says so, if the segment is the one
of the configuration. -/
theorem prepareExistingSegment_entry (config : WalWriterConfig) {writer : WalSegmentWriter}
    (hvalid : SegmentHeaderValid file) (hentry : writer.file.entry = .file file)
    (hstream : writer.streamId = config.streamId) (hepoch : writer.epoch = config.epoch)
    (faults : List (Option ℕ)) :
    (writer.prepareExistingSegment config.firstSequence faults).2.file.entry =
      if config.Matches (segmentHeaderOf file) then
        if (WalSegmentScanner.scan (.file file) faults).error = .incompleteTrailingRecord then
          (FileEntry.file file).resize (WalSegmentScanner.scan (.file file) faults).lastValidOffset
        else .file file
      else .file file := by
  unfold prepareExistingSegment
  rw [hentry, readExistingSegmentHeader_of_valid hvalid, hstream, hepoch]
  dsimp only
  rw [if_neg (not_not.mpr rfl)]
  by_cases hmatches : config.Matches (segmentHeaderOf file)
  · rw [if_pos hmatches, if_neg fun h => h.elim (fun h => h hmatches.1)
      fun h => h.elim (fun h => h hmatches.2.1) fun h => h hmatches.2.2]
    by_cases herror :
        (WalSegmentScanner.scan (.file file) faults).error = .incompleteTrailingRecord
    · rw [if_neg fun h => h.2 herror, if_pos herror]
    · rw [if_neg herror]
      split
      · exact hentry
      · rfl
  · rw [if_neg hmatches, if_pos]
    · exact hentry
    · by_contra h
      rw [not_or, not_or, not_not, not_not, not_not] at h
      exact hmatches h

/-- Opening a writer on a segment keeps complete records if the configuration is another one or
the scan reads them. -/
theorem create_kept_iff (config : WalWriterConfig) (outcomes : List SinkOutcome)
    (hsegment : CompleteSegment file views) (faults : List (Option ℕ)) :
    Kept file (create config { entry := .file file, outcomes := outcomes } faults).file.entry ↔
      (config.Matches (segmentHeaderOf file) → RecordsRead views faults) := by
  have hne : ¬ (FileEntry.file file).bytes?.getD [] = [] := by
    intro h
    have hcomplete := hsegment.header.complete
    have hempty : file = [] := h
    rw [hempty] at hcomplete
    exact absurd hcomplete (by decide)
  have hprepared := @prepareExistingSegment_entry file config
    { file := { entry := .file file, outcomes := outcomes }, streamId := config.streamId,
      epoch := config.epoch, nextSequence := config.firstSequence } hsegment.header rfl rfl rfl
    faults
  have hkept := kept_cut_iff hsegment faults
  obtain ⟨bytes, hbytes⟩ : ∃ bytes, (if config.Matches (segmentHeaderOf file) then
        if (WalSegmentScanner.scan (.file file) faults).error = .incompleteTrailingRecord then
          (FileEntry.file file).resize (WalSegmentScanner.scan (.file file) faults).lastValidOffset
        else .file file
      else FileEntry.file file) = .file bytes := by
    split
    · split
      · exact ⟨_, rfl⟩
      · exact ⟨_, rfl⟩
    · exact ⟨_, rfl⟩
  have hentry : (create config { entry := .file file, outcomes := outcomes } faults).file.entry =
      .file bytes := by
    rw [hbytes] at hprepared
    unfold create
    rw [if_neg FileEntry.noConfusion]
    simp only [hne, if_false]
    generalize prepareExistingSegment config.firstSequence faults _ = prepared at hprepared ⊢
    split
    · exact hprepared
    · exact (OutputStream.openAppend_of_file hprepared).1
  rw [hentry, ← hbytes]
  by_cases hmatches : config.Matches (segmentHeaderOf file)
  · rw [if_pos hmatches, kept_cut_iff hsegment]
    exact ⟨fun h _ => h, fun h => h hmatches⟩
  · rw [if_neg hmatches]
    exact iff_of_true (kept_self file) fun h => absurd h hmatches

end WalSegmentWriter

/-- A written segment consists of complete records. -/
theorem completeSegment_segmentBytes {config : WalWriterConfig} {calls : List Append}
    (hvalid : config.Valid) (hfits : ∀ call ∈ calls, call.Fits) :
    CompleteSegment (config.segmentBytes calls) (config.views config.firstSequence calls) := by
  obtain ⟨hheader, -, hframes⟩ := WalSegmentWriter.segment_append hvalid hfits
    (Parses.done (frontAt_nil config.segmentHeader _))
  rw [List.append_nil] at hheader hframes
  refine ⟨hheader, ?_⟩
  rw [config.segmentBytes_length, Nat.add_sub_cancel_left]
  rwa [List.append_nil, Nat.add_zero] at hframes

/-- Recovery and the writers of a segment with complete records keep its bytes if none of the
requests for the records meets an error, or if the request for the segment header meets one.
An error behind the records is harmless. -/
theorem read_error_keeps_records_iff (hsegment : CompleteSegment file views)
    (faults : List (Option ℕ)) :
    (Kept file (recoverWalSegmentWith faults (.file file)).2 ↔ RecordsRead views faults) ∧
      ∀ (config : WalWriterConfig) (outcomes : List SinkOutcome),
        Kept file (WalSegmentWriter.create config { entry := .file file, outcomes := outcomes }
            faults).file.entry ↔
          (config.Matches (segmentHeaderOf file) → RecordsRead views faults) :=
  ⟨recover_kept_iff hsegment faults,
    fun config outcomes => WalSegmentWriter.create_kept_iff config outcomes hsegment faults⟩

/-- An error behind the only record of a segment. -/
theorem read_error_keeps_records_iff_behind :
    let file := WalWriterConfig.segmentBytes { streamId := 7, epoch := 3 }
      [{ recordType := 200, payload := [1, 2, 3] }]
    Kept file (recoverWalSegmentWith [none, none, none, none, some 5] (.file file)).2 := by
  intro file
  have hsegment := @completeSegment_segmentBytes { streamId := 7, epoch := 3 }
    [{ recordType := 200, payload := [1, 2, 3] }] ⟨by decide, by decide, by decide⟩ (by decide)
  exact (read_error_keeps_records_iff hsegment [none, none, none, none, some 5]).1.mpr
    (by decide +kernel)

/-- An error in the payload of the only record: recovery and a writer cut the record off. -/
theorem read_error_cuts_record :
    let file := WalWriterConfig.segmentBytes { streamId := 7, epoch := 3 }
      [{ recordType := 200, payload := [1, 2, 3] }]
    (∃ views, CompleteSegment file views) ∧
      ¬ Kept file (recoverWalSegmentWith [none, none, some 1] (.file file)).2 ∧
      ¬ Kept file (WalSegmentWriter.create { streamId := 7, epoch := 3 } { entry := .file file }
        [none, none, some 1]).file.entry := by
  intro file
  have hsegment : CompleteSegment file (WalWriterConfig.views { streamId := 7, epoch := 3 } 1
      [{ recordType := 200, payload := [1, 2, 3] }]) :=
    completeSegment_segmentBytes ⟨by decide, by decide, by decide⟩ (by decide)
  have hfaulty : ¬ RecordsRead (WalWriterConfig.views { streamId := 7, epoch := 3 } 1
      [{ recordType := 200, payload := [1, 2, 3] }]) [none, none, some 1] := by decide +kernel
  have hmatches : WalWriterConfig.Matches { streamId := 7, epoch := 3 } (segmentHeaderOf file) := by
    rw [show segmentHeaderOf file = WalWriterConfig.segmentHeader { streamId := 7, epoch := 3 } from
      segmentHeaderOf_append _ _]
    exact ⟨rfl, rfl, rfl⟩
  refine ⟨⟨_, hsegment⟩, fun h => hfaulty ((recover_kept_iff hsegment _).mp h), fun h => ?_⟩
  exact hfaulty ((WalSegmentWriter.create_kept_iff { streamId := 7, epoch := 3 } [] hsegment
    [none, none, some 1]).mp h hmatches)

end Wal
