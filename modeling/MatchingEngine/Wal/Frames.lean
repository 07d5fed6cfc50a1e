import MatchingEngine.Library.Framing
import MatchingEngine.Wal.SegmentReader
import MatchingEngine.Wal.SegmentScanner

/-!
# What the format says

After its header a segment is a framed log: a frame is a valid record header, the
payload it announces and padding, of which some may be missing at the end of the file.
`frontAt` says this without streams and state bits. The reader and the scanner are
compared with it one record at a time.
-/

namespace Wal

open Framing InputStream

/-- The segment header at the front of a file. -/
def segmentHeaderOf (file : List UInt8) : WalSegmentHeader :=
  .ofBytes (file.take segmentHeaderSize)

/-- The segment header at the front of a file is complete and valid. -/
structure SegmentHeaderValid (file : List UInt8) : Prop where
  complete : segmentHeaderSize ≤ file.length
  fields : (segmentHeaderOf file).hasValidStaticFields
  checksum : (segmentHeaderOf file).headerCrc = (segmentHeaderOf file).calculateSegmentHeaderCrc

/-- The segment header is read from a file that is long enough. -/
theorem read_segmentHeader {file : List UInt8} (hlong : segmentHeaderSize ≤ file.length) :
    InputStream.read file segmentHeaderSize {} =
      (file.take segmentHeaderSize, reading segmentHeaderSize segmentHeaderSize) :=
  read_of_le (by rw [Nat.zero_add]; exact hlong)

/-- A valid header in front of a file is found there. -/
theorem segmentHeaderOf_append (h : WalSegmentHeader) (rest : List UInt8) :
    segmentHeaderOf (h.toBytes ++ rest) = h := by
  rw [segmentHeaderOf, List.take_left' h.toBytes_length, WalSegmentHeader.ofBytes_toBytes]

theorem SegmentHeaderValid.of_append {h : WalSegmentHeader} (hfields : h.hasValidStaticFields)
    (hchecksum : h.headerCrc = h.calculateSegmentHeaderCrc) (rest : List UInt8) :
    SegmentHeaderValid (h.toBytes ++ rest) := by
  refine ⟨?_, ?_, ?_⟩
  · rw [List.length_append, h.toBytes_length]
    exact Nat.le_add_right _ _
  · rwa [segmentHeaderOf_append]
  · rwa [segmentHeaderOf_append]

/-- The segment header of a file that is cut off behind it. -/
theorem segmentHeaderOf_take {file : List UInt8} {size : ℕ} (hsize : segmentHeaderSize ≤ size) :
    segmentHeaderOf (file.take size) = segmentHeaderOf file := by
  rw [segmentHeaderOf, List.take_take, Nat.min_eq_left hsize, segmentHeaderOf]

/-- A segment that is cut off behind its header keeps a valid header. -/
theorem SegmentHeaderValid.take {file : List UInt8} (hvalid : SegmentHeaderValid file) {size : ℕ}
    (hsize : segmentHeaderSize ≤ size) : SegmentHeaderValid (file.take size) := by
  refine ⟨?_, ?_, ?_⟩
  · rw [List.length_take]
    exact le_min hsize hvalid.complete
  · rw [segmentHeaderOf_take hsize]
    exact hvalid.fields
  · rw [segmentHeaderOf_take hsize]
    exact hvalid.checksum

/-- Why a record header cannot be the next one, in the order of the reader's checks. -/
def WalRecordHeader.refusal (segment : WalSegmentHeader) (expected : UInt64)
    (h : WalRecordHeader) : Option WalError :=
  if ¬ h.hasValidStaticFields then some .invalidRecordHeader
  else if h.headerCrc ≠ h.calculateRecordHeaderCrc then some .headerChecksumMismatch
  else if h.streamId ≠ segment.streamId ∨ h.epoch ≠ segment.epoch then
    some .invalidRecordHeader
  else if h.sequence ≠ expected then some .unexpectedSequence
  else none

/-- The next record header passes all checks. -/
theorem WalRecordHeader.refusal_eq_none_iff {segment : WalSegmentHeader} {expected : UInt64}
    {h : WalRecordHeader} :
    h.refusal segment expected = none ↔
      h.hasValidStaticFields ∧ h.headerCrc = h.calculateRecordHeaderCrc ∧
        h.streamId = segment.streamId ∧ h.epoch = segment.epoch ∧ h.sequence = expected := by
  unfold refusal
  split_ifs <;> grind

/-- A cut-off record is never the reason to refuse a complete header. -/
theorem WalRecordHeader.refusal_ne_incomplete {segment : WalSegmentHeader} {expected : UInt64}
    {h : WalRecordHeader} {error : WalError} (hrefusal : h.refusal segment expected = some error) :
    error ≠ .incompleteTrailingRecord := by
  rintro rfl
  unfold refusal at hrefusal
  split_ifs at hrefusal <;> cases hrefusal

/-- The size of the frame that a record header announces. -/
def WalRecordHeader.frameSize (h : WalRecordHeader) : ℕ :=
  recordHeaderSize + h.payloadLength.toNat + h.padding.toInt64.toInt.toNat

/-- What is at the front of the unread part of a segment. -/
def frontAt (segment : WalSegmentHeader) (expected : UInt64) (input : List UInt8) :
    Front UInt64 WalRecordView WalError :=
  if input = [] then .done
  else if input.length < recordHeaderSize then .stop .incompleteTrailingRecord
  else
    let header := WalRecordHeader.ofBytes (input.take recordHeaderSize)
    match header.refusal segment expected with
    | some error => .stop error
    | none =>
      let length := header.payloadLength.toNat
      let payload := (input.drop recordHeaderSize).take length
      if input.length < recordHeaderSize + length then .stop .incompleteTrailingRecord
      else if calculateCrc32 payload ≠ header.payloadCrc then .stop .payloadChecksumMismatch
      else .item { header := header, payload := payload } (expected + 1) header.frameSize

/-- Nothing is left at the end of the file. -/
theorem frontAt_nil (segment : WalSegmentHeader) (expected : UInt64) :
    frontAt segment expected [] = .done := rfl

/-- The records of the unread part of a segment, when `expected` is the next number. -/
abbrev Frames (segment : WalSegmentHeader) : UInt64 → List UInt8 → List WalRecordView → ℕ →
    Option WalError → Prop := Parses (frontAt segment)

/-- What the front of the unread part can be, with what its bytes are like. -/
inductive FrontCase (segment : WalSegmentHeader) (expected : UInt64) (input : List UInt8) :
    Front UInt64 WalRecordView WalError → Prop where
  /-- The end of the file. -/
  | done (hempty : input = []) : FrontCase segment expected input .done
  /-- A header that is cut off. -/
  | torn (hne : input ≠ []) (hshort : input.length < recordHeaderSize) :
    FrontCase segment expected input (.stop .incompleteTrailingRecord)
  /-- A header that is refused. -/
  | refused {header : WalRecordHeader} {error : WalError}
    (hlong : recordHeaderSize ≤ input.length)
    (hheader : header = WalRecordHeader.ofBytes (input.take recordHeaderSize))
    (hrefusal : header.refusal segment expected = some error) :
    FrontCase segment expected input (.stop error)
  /-- A payload that is cut off. -/
  | tornPayload {header : WalRecordHeader} (hlong : recordHeaderSize ≤ input.length)
    (hheader : header = WalRecordHeader.ofBytes (input.take recordHeaderSize))
    (haccepted : header.refusal segment expected = none)
    (hshort : input.length < recordHeaderSize + header.payloadLength.toNat) :
    FrontCase segment expected input (.stop .incompleteTrailingRecord)
  /-- A payload that does not match its checksum. -/
  | mismatch {header : WalRecordHeader} {payload : List UInt8}
    (hheader : header = WalRecordHeader.ofBytes (input.take recordHeaderSize))
    (haccepted : header.refusal segment expected = none)
    (hlong : recordHeaderSize + header.payloadLength.toNat ≤ input.length)
    (hpayload : payload = (input.drop recordHeaderSize).take header.payloadLength.toNat)
    (hchecksum : calculateCrc32 payload ≠ header.payloadCrc) :
    FrontCase segment expected input (.stop .payloadChecksumMismatch)
  /-- A record. -/
  | item {header : WalRecordHeader} {payload : List UInt8}
    (hheader : header = WalRecordHeader.ofBytes (input.take recordHeaderSize))
    (haccepted : header.refusal segment expected = none)
    (hlong : recordHeaderSize + header.payloadLength.toNat ≤ input.length)
    (hpayload : payload = (input.drop recordHeaderSize).take header.payloadLength.toNat)
    (hchecksum : calculateCrc32 payload = header.payloadCrc) :
    FrontCase segment expected input
      (.item { header := header, payload := payload } (expected + 1) header.frameSize)

/-- Every front is of one of these kinds. -/
theorem frontAt_case (segment : WalSegmentHeader) (expected : UInt64) (input : List UInt8) :
    FrontCase segment expected input (frontAt segment expected input) := by
  unfold frontAt
  split
  · exact .done ‹_›
  split
  · exact .torn ‹_› ‹_›
  have hlong := Nat.le_of_not_lt ‹_›
  cases hrefusal : (WalRecordHeader.ofBytes (input.take recordHeaderSize)).refusal segment
    expected with
  | some error =>
    simp only [hrefusal]
    exact .refused hlong rfl hrefusal
  | none =>
    simp only [hrefusal]
    split
    · exact .tornPayload hlong rfl hrefusal ‹_›
    have hpayload := Nat.le_of_not_lt ‹_›
    split
    · exact .mismatch rfl hrefusal hpayload rfl ‹_›
    · exact .item rfl hrefusal hpayload rfl (not_not.mp ‹_›)

/-- Every record takes up space. -/
theorem frontAt_progress (segment : WalSegmentHeader) (expected : UInt64) (input : List UInt8)
    (view : WalRecordView) (next : UInt64) (size : ℕ)
    (hfront : frontAt segment expected input = .item view next size) :
    0 < size ∧ input ≠ [] := by
  have hcase := frontAt_case segment expected input
  rw [hfront] at hcase
  cases hcase with
  | item _ _ hlong =>
    refine ⟨by unfold WalRecordHeader.frameSize recordHeaderSize; omega, ?_⟩
    rintro rfl
    simp [recordHeaderSize] at hlong

/-- Only at the end of the file nothing is left. -/
theorem frontAt_eq_done_iff {segment : WalSegmentHeader} {expected : UInt64}
    {input : List UInt8} : frontAt segment expected input = .done ↔ input = [] := by
  constructor
  · intro hfront
    have hcase := frontAt_case segment expected input
    rw [hfront] at hcase
    cases hcase with
    | done hempty => exact hempty
  · rintro rfl
    exact frontAt_nil segment expected

/-- A record found at the front has the expected number, and the next one is expected. -/
theorem frontAt_item {segment : WalSegmentHeader} {expected next : UInt64} {input : List UInt8}
    {view : WalRecordView} {size : ℕ}
    (hfront : frontAt segment expected input = .item view next size) :
    view.header.position = ⟨segment.streamId, segment.epoch, expected⟩ ∧ next = expected + 1 := by
  have hcase := frontAt_case segment expected input
  rw [hfront] at hcase
  cases hcase with
  | item _ haccepted =>
    obtain ⟨-, -, hstream, hepoch, hsequence⟩ :=
      WalRecordHeader.refusal_eq_none_iff.mp haccepted
    exact ⟨by rw [WalRecordHeader.position, hstream, hepoch, hsequence], rfl⟩

/-- A complete header that is refused stops the frames. -/
theorem frontAt_of_refusal {segment : WalSegmentHeader} {expected : UInt64} {bytes : List UInt8}
    {error : WalError} (hlength : bytes.length = recordHeaderSize)
    (hrefusal : (WalRecordHeader.ofBytes bytes).refusal segment expected = some error)
    (rest : List UInt8) : frontAt segment expected (bytes ++ rest) = .stop error := by
  have hsum : (bytes ++ rest).length = recordHeaderSize + rest.length := by
    rw [List.length_append, hlength]
  have hne : bytes ++ rest ≠ [] := by
    intro hempty
    rw [hempty, List.length_nil, recordHeaderSize] at hsum
    omega
  unfold frontAt
  rw [if_neg hne, if_neg (by omega)]
  simp only [List.take_left' hlength, hrefusal]

/-- What is found at an accepted header with its payload depends on the checksum of the
payload alone. -/
theorem frontAt_of_accepted {segment : WalSegmentHeader} {expected : UInt64}
    {header : WalRecordHeader} (haccepted : header.refusal segment expected = none)
    {payload : List UInt8} (hpayload : payload.length = header.payloadLength.toNat)
    (rest : List UInt8) :
    frontAt segment expected (header.toBytes ++ (payload ++ rest)) =
      if calculateCrc32 payload ≠ header.payloadCrc then .stop .payloadChecksumMismatch
      else .item { header := header, payload := payload } (expected + 1) header.frameSize := by
  have hlength := header.toBytes_length
  have hsum : (header.toBytes ++ (payload ++ rest)).length =
      recordHeaderSize + (header.payloadLength.toNat + rest.length) := by
    rw [List.length_append, List.length_append, hlength, hpayload]
  have hne : header.toBytes ++ (payload ++ rest) ≠ [] := by
    intro hempty
    rw [hempty, List.length_nil, recordHeaderSize] at hsum
    omega
  unfold frontAt
  rw [if_neg hne, if_neg (by omega)]
  simp only [List.take_left' hlength, List.drop_left' hlength, WalRecordHeader.ofBytes_toBytes,
    haccepted, List.take_left' hpayload]
  rw [if_neg (by omega)]

/-- A header that is accepted, its complete payload and the right checksum are a record. -/
theorem frontAt_of_record {segment : WalSegmentHeader} {expected : UInt64} {input : List UInt8}
    {header : WalRecordHeader} {payload : List UInt8}
    (hheader : header = WalRecordHeader.ofBytes (input.take recordHeaderSize))
    (haccepted : header.refusal segment expected = none)
    (hlong : recordHeaderSize + header.payloadLength.toNat ≤ input.length)
    (hpayload : payload = (input.drop recordHeaderSize).take header.payloadLength.toNat)
    (hchecksum : calculateCrc32 payload = header.payloadCrc) :
    frontAt segment expected input =
      .item { header := header, payload := payload } (expected + 1) header.frameSize := by
  have hne : input ≠ [] := by
    rintro rfl
    simp [recordHeaderSize] at hlong
  unfold frontAt
  rw [if_neg hne, if_neg (by omega)]
  simp only [← hheader, haccepted, ← hpayload]
  rw [if_neg (by omega), if_neg (not_not.mpr hchecksum)]

/-- A record does not depend on what is behind its frame. -/
theorem frontAt_take (segment : WalSegmentHeader) (expected : UInt64) (input : List UInt8)
    (view : WalRecordView) (next : UInt64) (size count : ℕ)
    (hfront : frontAt segment expected input = .item view next size) (hcount : size ≤ count) :
    frontAt segment expected (input.take count) = .item view next size := by
  have hcase := frontAt_case segment expected input
  rw [hfront] at hcase
  cases hcase with
  | @item header payload hheader haccepted hlong hpayload hchecksum =>
    have hinside : recordHeaderSize + header.payloadLength.toNat ≤ count := by
      unfold WalRecordHeader.frameSize at hcount
      omega
    refine frontAt_of_record ?_ haccepted ?_ ?_ hchecksum
    · rw [List.take_take, Nat.min_eq_left (by omega)]
      exact hheader
    · rw [List.length_take]
      omega
    · rw [List.drop_take, List.take_take, Nat.min_eq_left (by omega)]
      exact hpayload

/-- With another expected number a record is out of sequence. -/
theorem frontAt_other {segment : WalSegmentHeader} {expected other next : UInt64}
    {input : List UInt8} {view : WalRecordView} {size : ℕ}
    (hfront : frontAt segment expected input = .item view next size) (hother : other ≠ expected) :
    frontAt segment other input = .stop .unexpectedSequence := by
  have hcase := frontAt_case segment expected input
  rw [hfront] at hcase
  cases hcase with
  | @item header payload hheader haccepted hlong hpayload hchecksum =>
    obtain ⟨hfields, hcrc, hstream, hepoch, hsequence⟩ :=
      WalRecordHeader.refusal_eq_none_iff.mp haccepted
    have hrefusal : header.refusal segment other = some .unexpectedSequence := by
      unfold WalRecordHeader.refusal
      rw [if_neg (not_not.mpr hfields), if_neg (not_not.mpr hcrc),
        if_neg (by rintro (h | h) <;> contradiction),
        if_pos (by rw [hsequence]; exact hother.symm)]
    have hlength : (input.take recordHeaderSize).length = recordHeaderSize := by
      rw [List.length_take]
      omega
    rw [hheader] at hrefusal
    have hrest := frontAt_of_refusal hlength hrefusal (input.drop recordHeaderSize)
    rwa [List.take_append_drop] at hrest

/-- A record that is cut off is one whatever number is expected, unless its header is
refused. -/
theorem frontAt_incomplete {segment : WalSegmentHeader} {expected : UInt64} {input : List UInt8}
    (hfront : frontAt segment expected input = .stop .incompleteTrailingRecord) (other : UInt64) :
    ∃ error, frontAt segment other input = .stop error := by
  have hcase := frontAt_case segment expected input
  have hother := frontAt_case segment other input
  rw [hfront] at hcase
  generalize frontAt segment other input = front at hother ⊢
  cases hother with
  | done hempty =>
    subst hempty
    cases hfront
  | item hheader' _ hlong' =>
    cases hcase with
    | torn _ hshort => omega
    | refused _ _ hrefusal => exact absurd rfl (WalRecordHeader.refusal_ne_incomplete hrefusal)
    | tornPayload _ hheader _ hshort =>
      rw [hheader, ← hheader'] at hshort
      omega
  | _ => exact ⟨_, rfl⟩

/-- The record that is handed out. -/
def WalRecordView.record (view : WalRecordView) : WalRecord :=
  { recordType := view.header.recordType, position := view.header.position,
    payload := view.payload }

/-- The position of the last of the records, or the given one if there is none. -/
def lastOf (position : WalPosition) (views : List WalRecordView) : WalPosition :=
  (views.getLast?.map fun view => view.header.position).getD position

@[simp] theorem lastOf_nil (position : WalPosition) : lastOf position [] = position := rfl

@[simp] theorem lastOf_cons (position : WalPosition) (view : WalRecordView)
    (views : List WalRecordView) :
    lastOf position (view :: views) = lastOf view.header.position views := by
  unfold lastOf
  cases views with
  | nil => rfl
  | cons view' views => rw [List.getLast?_cons_cons]; simp [List.getLast?_cons]

/-! ## Streams between records -/

/-- The stream of a file is at an offset. Skipping padding that is missing leaves the
offset behind the end of the file. -/
def Positioned (file : List UInt8) (offset : ℕ) (stream : InputStream) : Prop :=
  (offset ≤ file.length ∧ ∃ gcount, stream = reading offset gcount) ∨
    (file.length < offset ∧ ∃ gcount, stream = past file.length gcount)

/-- Both parsers read a payload in the same way, and one inside the file completely. -/
theorem payload_of_le {file : List UInt8} {offset : ℕ} (gcount : ℕ) {length : UInt32}
    (hlong : offset + length.toNat ≤ file.length) {read : List UInt8 × InputStream}
    (hread : read = if length ≠ 0 then (reading offset gcount).read file length.toNat
      else ([], reading offset gcount)) :
    ¬ (length ≠ 0 ∧ read.2.gcount ≠ length.toNat) ∧
      ∃ gcount', read =
        ((file.drop offset).take length.toNat, reading (offset + length.toNat) gcount') := by
  by_cases hzero : length = 0
  · rw [if_neg (not_not.mpr hzero)] at hread
    refine ⟨fun h => h.1 hzero, gcount, ?_⟩
    rw [hread, hzero]
    rfl
  · rw [if_pos hzero, read_of_le hlong] at hread
    refine ⟨fun h => h.2 ?_, length.toNat, hread⟩
    rw [hread]
    rfl

/-- A payload that is cut off is noticed by its count. -/
theorem payload_of_lt {file : List UInt8} {offset gcount : ℕ} {length : UInt32}
    (hoffset : offset ≤ file.length) (hshort : file.length < offset + length.toNat)
    {read : List UInt8 × InputStream}
    (hread : read = if length ≠ 0 then (reading offset gcount).read file length.toNat
      else ([], reading offset gcount)) :
    length ≠ 0 ∧ read.2.gcount ≠ length.toNat := by
  have hne : length ≠ 0 := by
    intro hzero
    rw [hzero] at hshort
    exact absurd hshort (Nat.not_lt.mpr hoffset)
  rw [if_pos hne, read_of_lt hoffset hshort] at hread
  refine ⟨hne, ?_⟩
  rw [hread]
  change file.length - offset ≠ length.toNat
  omega

/-- Both parsers skip the padding behind a payload in the same way. -/
theorem skip_positioned {file : List UInt8} {offset : ℕ} (gcount : ℕ)
    (hoffset : offset ≤ file.length) (header : WalRecordHeader) {stream : InputStream}
    (hstream : stream = if header.padding ≠ 0
      then (reading offset gcount).ignore file header.padding.toInt64.toInt
      else reading offset gcount) :
    Positioned file (offset + header.padding.toInt64.toInt.toNat) stream ∧
      stream.failed = false := by
  by_cases hzero : header.padding = 0
  · rw [if_neg (not_not.mpr hzero)] at hstream
    rw [hstream, hzero]
    exact ⟨.inl ⟨hoffset, gcount, rfl⟩, rfl⟩
  · rw [if_pos hzero] at hstream
    generalize header.padding.toInt64.toInt = count at hstream
    rcases Int.lt_or_le 0 count with hpos | hneg
    · obtain ⟨count, rfl⟩ := Int.eq_ofNat_of_zero_le hpos.le
      have hcount : 0 < count := by omega
      rw [Int.toNat_natCast]
      rcases Nat.lt_or_ge file.length (offset + count) with hlt | hle
      · rw [ignore_of_lt hoffset hlt] at hstream
        rw [hstream]
        exact ⟨.inr ⟨hlt, _, rfl⟩, rfl⟩
      · rw [ignore_of_le hcount hle] at hstream
        rw [hstream]
        exact ⟨.inl ⟨hle, _, rfl⟩, rfl⟩
    · rw [ignore_of_nonpos hneg] at hstream
      rw [Int.toNat_of_nonpos hneg, hstream]
      exact ⟨.inl ⟨hoffset, 0, rfl⟩, rfl⟩

end Wal
