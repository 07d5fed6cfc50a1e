import MatchingEngine.Wal.Frames

/-!
# The reader walks over the frames

A call of `read_next` takes the next frame of the file, and reading until no record is
returned takes all of them, in their order, up to the first that is not valid.
-/

namespace Wal

open Framing InputStream

namespace WalSegmentReader

/-- What a call of `read_next` between two records returns and leaves behind, for each
front of the unread part. -/
inductive ReadStep (file : List UInt8) (offset : ℕ) (reader : WalSegmentReader) :
    Front UInt64 WalRecordView WalError →
      WalReadResult × Option WalRecordView × WalSegmentReader → Prop where
  | done {stream : InputStream} (hstream : Positioned file file.length stream) :
    ReadStep file offset reader .done
      ({ status := .endOfLog, error := .endOfLog, position := reader.lastPosition }, none,
        { reader with file := stream })
  | stop (error : WalError) (stream : InputStream) :
    ReadStep file offset reader (.stop error)
      (reader.refuse error, none, { reader with file := stream })
  | item (view : WalRecordView) (next : UInt64) (size : ℕ) {stream : InputStream}
    (hstream : Positioned file (offset + size) stream) :
    ReadStep file offset reader (.item view next size)
      ({ status := .recordRead, error := .none, position := view.header.position }, some view,
        { reader with file := stream, lastPosition := view.header.position })

variable {file : List UInt8} {offset gcount : ℕ} {reader : WalSegmentReader}

/-- A header inside the file is checked as the format says. -/
theorem readRecordHeader_of_le (hfile : reader.file = reading offset gcount)
    (hlong : offset + recordHeaderSize ≤ file.length) {header : WalRecordHeader}
    (hheader : header = WalRecordHeader.ofBytes ((file.drop offset).take recordHeaderSize)) :
    reader.readRecordHeader file =
      (match header.refusal reader.segmentHeader reader.expectedSequence with
        | some error => reader.refuse error
        | none => { status := .recordRead, error := .none, position := header.position },
      header,
      { reader with file := reading (offset + recordHeaderSize) recordHeaderSize }) := by
  have hcount : (reading (offset + recordHeaderSize) recordHeaderSize).gcount =
      recordHeaderSize := rfl
  unfold readRecordHeader
  rw [hfile, read_of_le hlong]
  simp only [← hheader, hcount]
  rw [if_neg (by simp [recordHeaderSize]), if_neg (not_not.mpr rfl)]
  unfold WalRecordHeader.refusal
  split
  · rfl
  split
  · rfl
  split
  · rfl
  have hexpected : expectedSequence
      { reader with file := reading (offset + recordHeaderSize) recordHeaderSize } =
      reader.expectedSequence := rfl
  rw [hexpected]
  split
  · rfl
  · rfl

/-- A header that is cut off, or nothing. -/
theorem readRecordHeader_of_lt (hfile : reader.file = reading offset gcount)
    (hoffset : offset ≤ file.length) (hshort : file.length < offset + recordHeaderSize) :
    ∃ header stream, reader.readRecordHeader file =
      (if offset = file.length then
        { status := .endOfLog, error := .endOfLog, position := reader.lastPosition }
        else reader.refuse .incompleteTrailingRecord,
      header, { reader with file := stream }) ∧
      (offset = file.length → Positioned file file.length stream) ∧
      (offset ≠ file.length → stream.failed = true) := by
  have hcount : ¬ file.length - offset = recordHeaderSize := by omega
  unfold readRecordHeader
  rw [hfile, read_of_lt hoffset hshort]
  by_cases hend : offset = file.length
  · rw [if_pos hend]
    simp only [hend, Nat.sub_self, and_self, if_true]
    exact ⟨_, _, rfl, fun _ => .inl ⟨le_rfl, 0, rfl⟩, fun h => absurd rfl h⟩
  · have hsome : ¬ file.length - offset = 0 := by omega
    rw [if_neg hend]
    simp only [hsome, hcount, false_and, if_false, ne_eq, not_false_eq_true, if_true]
    exact ⟨_, _, rfl, fun h => absurd h hend, fun _ => rfl⟩

/-- A stream past the end of the file finds nothing more. -/
theorem readRecordHeader_past (hfile : reader.file = past file.length gcount) :
    ∃ header stream, reader.readRecordHeader file =
      ({ status := .endOfLog, error := .endOfLog, position := reader.lastPosition },
        header, { reader with file := stream }) ∧ Positioned file file.length stream := by
  unfold readRecordHeader
  rw [hfile, read_past]
  exact ⟨_, _, rfl, .inl ⟨le_rfl, 0, rfl⟩⟩

/-- A payload inside the file is checked against its checksum. -/
theorem readPayload_of_le (hfile : reader.file = reading offset gcount)
    (header : WalRecordHeader) (hlong : offset + header.payloadLength.toNat ≤ file.length)
    {payload : List UInt8}
    (hpayload : payload = (file.drop offset).take header.payloadLength.toNat) :
    ∃ gcount', reader.readPayload file header =
      (if calculateCrc32 payload ≠ header.payloadCrc then reader.refuse .payloadChecksumMismatch
        else { status := .recordRead, error := .none, position := header.position },
      payload,
      { reader with file := reading (offset + header.payloadLength.toNat) gcount' }) := by
  obtain ⟨hcomplete, gcount', hread⟩ := payload_of_le gcount hlong rfl
  unfold readPayload
  rw [hfile]
  simp only [hread] at hcomplete ⊢
  rw [if_neg hcomplete, ← hpayload]
  refine ⟨gcount', ?_⟩
  split
  · rfl
  · rfl

/-- A payload that is cut off. -/
theorem readPayload_of_lt (hfile : reader.file = reading offset gcount)
    (header : WalRecordHeader) (hoffset : offset ≤ file.length)
    (hshort : file.length < offset + header.payloadLength.toNat) :
    ∃ payload stream, reader.readPayload file header =
      (reader.refuse .incompleteTrailingRecord, payload, { reader with file := stream }) ∧
      stream.failed = true := by
  have htorn := @payload_of_lt file offset gcount header.payloadLength hoffset hshort _ rfl
  unfold readPayload
  simp only [hfile]
  rw [if_pos htorn, if_pos htorn.1, read_of_lt hoffset hshort]
  exact ⟨_, _, rfl, rfl⟩

/-- The padding behind a payload is skipped without a failure. -/
theorem skip_padding (reader : WalSegmentReader) (hfile : reader.file = reading offset gcount)
    (hoffset : offset ≤ file.length) (header : WalRecordHeader) :
    ∃ stream, (if header.padding ≠ 0
        then { reader with file := reader.file.ignore file header.padding.toInt64.toInt }
        else reader) = { reader with file := stream } ∧
      stream.failed = false ∧
      Positioned file (offset + header.padding.toInt64.toInt.toNat) stream := by
  obtain ⟨hpositioned, hgood⟩ := skip_positioned gcount hoffset header rfl
  refine ⟨_, ?_, hgood, hpositioned⟩
  rw [← hfile]
  split
  · rfl
  · rfl

/-! ## One call between two records -/

/-- A call on a stream that has not failed starts with the record header. -/
theorem readNext_eq (hopen : reader.openResult.status = .recordRead)
    (hfile : reader.file.failed = false) :
    reader.readNext file =
      let headerRead := reader.readRecordHeader file
      let header := headerRead.2.1
      if headerRead.1.status ≠ .recordRead then (headerRead.1, none, headerRead.2.2)
      else
        let payloadRead := headerRead.2.2.readPayload file header
        let reader := payloadRead.2.2
        if payloadRead.1.status ≠ .recordRead then (payloadRead.1, none, reader)
        else
          let reader := if header.padding ≠ 0
            then { reader with file := reader.file.ignore file header.padding.toInt64.toInt }
            else reader
          if header.padding ≠ 0 ∧ reader.file.failed then
            (reader.refuse .cannotReadFile, none, reader)
          else
            let reader := { reader with lastPosition := header.position }
            ({ status := .recordRead, error := .none, position := reader.lastPosition },
              some { header := header, payload := payloadRead.2.1 }, reader) := by
  unfold readNext
  rw [if_neg (not_not.mpr hopen), hfile, if_neg Bool.false_ne_true]

/-- At the end of the file there is nothing to read, now and later. -/
theorem readNext_end (hopen : reader.openResult.status = .recordRead)
    (hstream : Positioned file offset reader.file) (hend : file.length ≤ offset) :
    ∃ stream, reader.readNext file =
      ({ status := .endOfLog, error := .endOfLog, position := reader.lastPosition }, none,
        { reader with file := stream }) ∧ Positioned file file.length stream := by
  rcases hstream with ⟨hoffset, gcount, hfile⟩ | ⟨hoffset, gcount, hfile⟩
  · obtain rfl : offset = file.length := Nat.le_antisymm hoffset hend
    obtain ⟨header, stream, hread, hpositioned, -⟩ := readRecordHeader_of_lt hfile hoffset
      (Nat.lt_add_of_pos_right (by decide))
    rw [readNext_eq hopen (by rw [hfile]; rfl), hread, if_pos rfl]
    exact ⟨stream, rfl, hpositioned rfl⟩
  · obtain ⟨header, stream, hread, hpositioned⟩ := readRecordHeader_past hfile
    rw [readNext_eq hopen (by rw [hfile]; rfl), hread]
    exact ⟨stream, rfl, hpositioned⟩

section Inside

variable (hopen : reader.openResult.status = .recordRead)
  (hfile : reader.file = reading offset gcount)
include hopen hfile

/-- A header that is cut off leaves a failed stream. -/
theorem readNext_torn (hsome : offset < file.length)
    (hshort : file.length < offset + recordHeaderSize) :
    ∃ stream, reader.readNext file =
      (reader.refuse .incompleteTrailingRecord, none, { reader with file := stream }) ∧
      stream.failed = true := by
  obtain ⟨header, stream, hread, -, hfailed⟩ := readRecordHeader_of_lt hfile hsome.le hshort
  rw [readNext_eq hopen (by rw [hfile]; rfl), hread, if_neg hsome.ne]
  exact ⟨stream, rfl, hfailed hsome.ne⟩

/-- A header that is refused leaves the stream behind the header. -/
theorem readNext_refused (hlong : offset + recordHeaderSize ≤ file.length)
    {header : WalRecordHeader}
    (hheader : header = WalRecordHeader.ofBytes ((file.drop offset).take recordHeaderSize))
    {error : WalError}
    (hrefusal : header.refusal reader.segmentHeader reader.expectedSequence = some error) :
    reader.readNext file =
      (reader.refuse error, none,
        { reader with file := reading (offset + recordHeaderSize) recordHeaderSize }) := by
  rw [readNext_eq hopen (by rw [hfile]; rfl), readRecordHeader_of_le hfile hlong hheader, hrefusal]
  rfl

variable {header : WalRecordHeader}
  (hheader : header = WalRecordHeader.ofBytes ((file.drop offset).take recordHeaderSize))
  (haccepted : header.refusal reader.segmentHeader reader.expectedSequence = none)
include hheader haccepted

/-- A payload that is cut off leaves a failed stream. -/
theorem readNext_tornPayload (hlong : offset + recordHeaderSize ≤ file.length)
    (hshort : file.length < offset + recordHeaderSize + header.payloadLength.toNat) :
    ∃ stream, reader.readNext file =
      (reader.refuse .incompleteTrailingRecord, none, { reader with file := stream }) ∧
      stream.failed = true := by
  obtain ⟨payload, stream, hread, hfailed⟩ := @readPayload_of_lt file
    (offset + recordHeaderSize) recordHeaderSize
    { reader with file := reading (offset + recordHeaderSize) recordHeaderSize }
    rfl header hlong hshort
  rw [readNext_eq hopen (by rw [hfile]; rfl), readRecordHeader_of_le hfile hlong hheader, haccepted]
  simp only [ne_eq, not_true, if_false, hread]
  exact ⟨stream, rfl, hfailed⟩

variable (hlong : offset + recordHeaderSize + header.payloadLength.toNat ≤ file.length)
  {payload : List UInt8}
  (hpayload : payload =
    (file.drop (offset + recordHeaderSize)).take header.payloadLength.toNat)
include hlong hpayload

/-- A payload with another checksum leaves the stream behind the payload. -/
theorem readNext_mismatch (hchecksum : calculateCrc32 payload ≠ header.payloadCrc) :
    ∃ gcount', reader.readNext file =
      (reader.refuse .payloadChecksumMismatch, none,
        { reader with
          file := reading (offset + recordHeaderSize + header.payloadLength.toNat) gcount' }) := by
  obtain ⟨gcount', hread⟩ := @readPayload_of_le file
    (offset + recordHeaderSize) recordHeaderSize
    { reader with file := reading (offset + recordHeaderSize) recordHeaderSize }
    rfl header hlong payload hpayload
  rw [if_pos hchecksum] at hread
  rw [readNext_eq hopen (by rw [hfile]; rfl),
    readRecordHeader_of_le hfile (by omega) hheader, haccepted]
  simp only [ne_eq, not_true, if_false, hread]
  exact ⟨gcount', rfl⟩

/-- A record is handed out and its padding is skipped. -/
theorem readNext_record (hchecksum : calculateCrc32 payload = header.payloadCrc) :
    ∃ stream, reader.readNext file =
      ({ status := .recordRead, error := .none, position := header.position },
        some { header := header, payload := payload },
        { reader with file := stream, lastPosition := header.position }) ∧
      Positioned file (offset + header.frameSize) stream := by
  obtain ⟨gcount', hread⟩ := @readPayload_of_le file
    (offset + recordHeaderSize) recordHeaderSize
    { reader with file := reading (offset + recordHeaderSize) recordHeaderSize }
    rfl header hlong payload hpayload
  rw [if_neg (not_not.mpr hchecksum)] at hread
  obtain ⟨stream, hskip, hgood, hpositioned⟩ := skip_padding { reader with
    file := reading (offset + recordHeaderSize + header.payloadLength.toNat) gcount' }
    rfl hlong header
  have hsize : offset + recordHeaderSize + header.payloadLength.toNat +
      header.padding.toInt64.toInt.toNat = offset + header.frameSize := by
    unfold WalRecordHeader.frameSize
    omega
  rw [hsize] at hpositioned
  rw [readNext_eq hopen (by rw [hfile]; rfl),
    readRecordHeader_of_le hfile (by omega) hheader, haccepted]
  simp only [ne_eq, not_true, if_false, hread] at hskip ⊢
  rw [hskip]
  simp only [hgood]
  rw [if_neg (by simp)]
  exact ⟨stream, rfl, hpositioned⟩

end Inside

/-- A call of `read_next` between two records takes the next frame. -/
theorem readNext_step (hopen : reader.openResult.status = .recordRead)
    (hstream : Positioned file offset reader.file) :
    ReadStep file offset reader
      (frontAt reader.segmentHeader reader.expectedSequence (file.drop offset))
      (reader.readNext file) := by
  have hcase := frontAt_case reader.segmentHeader reader.expectedSequence (file.drop offset)
  rcases Nat.lt_or_ge offset file.length with hinside | hend
  · rcases hstream with ⟨hoffset, gcount, hfile⟩ | ⟨hpast, -⟩
    · have hlength : (file.drop offset).length = file.length - offset := List.length_drop
      have hdrop : (file.drop offset).drop recordHeaderSize =
          file.drop (offset + recordHeaderSize) := List.drop_drop
      generalize frontAt reader.segmentHeader reader.expectedSequence (file.drop offset) = front
        at hcase ⊢
      cases hcase with
      | done hempty =>
        rw [hempty, List.length_nil] at hlength
        omega
      | torn _ hshort =>
        obtain ⟨stream, hread, -⟩ := readNext_torn hopen hfile hinside (by omega)
        rw [hread]
        exact .stop _ stream
      | refused hlong hheader hrefusal =>
        rw [readNext_refused hopen hfile (by omega) hheader hrefusal]
        exact .stop _ _
      | tornPayload hlong hheader haccepted hshort =>
        obtain ⟨stream, hread, -⟩ := readNext_tornPayload hopen hfile hheader haccepted
          (by omega) (by omega)
        rw [hread]
        exact .stop _ stream
      | mismatch hheader haccepted hlong hpayload hchecksum =>
        rw [hdrop] at hpayload
        obtain ⟨gcount', hread⟩ := readNext_mismatch hopen hfile hheader haccepted (by omega)
          hpayload hchecksum
        rw [hread]
        exact .stop _ _
      | item hheader haccepted hlong hpayload hchecksum =>
        rw [hdrop] at hpayload
        obtain ⟨stream, hread, hpositioned⟩ := readNext_record hopen hfile hheader haccepted
          (by omega) hpayload hchecksum
        rw [hread]
        exact .item _ _ _ hpositioned
    · exact absurd hpast (Nat.not_lt.mpr hinside.le)
  · obtain ⟨stream, hread, hpositioned⟩ := readNext_end hopen hstream hend
    rw [List.drop_eq_nil_of_le hend, frontAt_nil, hread]
    exact .done hpositioned

/-- The result that ends the reading of a log. -/
def finalOf (ending : Option WalError) (position : WalPosition) : WalReadResult :=
  match ending with
  | none => { status := .endOfLog, error := .endOfLog, position := position }
  | some error => { status := .failed, error := error, position := position }

/-- Reading comes to an end: every record takes up space in the file. -/
theorem exists_readRecords (hopen : reader.openResult.status = .recordRead)
    (hstream : Positioned file offset reader.file) {calls : ℕ}
    (hcalls : file.length - offset < calls) :
    ∃ read, readRecords file calls reader = some read := by
  induction calls generalizing offset reader with
  | zero => exact absurd hcalls (Nat.not_lt_zero _)
  | succ calls ih =>
    have hstep := readNext_step hopen hstream
    unfold readRecords
    generalize hfront : frontAt reader.segmentHeader reader.expectedSequence
      (file.drop offset) = front at hstep
    generalize reader.readNext file = outcome at hstep
    cases hstep with
    | done => exact ⟨_, rfl⟩
    | stop => exact ⟨_, rfl⟩
    | @item view next size stream hpositioned =>
      obtain ⟨hsize, hne⟩ := frontAt_progress _ _ _ _ _ _ hfront
      have hinside : offset < file.length := by
        by_contra hpast
        exact hne (List.drop_eq_nil_of_le (Nat.le_of_not_lt hpast))
      obtain ⟨read, hread⟩ := @ih _
        { reader with file := stream, lastPosition := view.header.position }
        hopen hpositioned (by omega)
      simp only [hread, Option.map_some]
      exact ⟨_, rfl⟩

/-- At the end of the file the reading ends. -/
theorem readRecords_of_done (hopen : reader.openResult.status = .recordRead)
    (hstream : Positioned file offset reader.file)
    (hfront : frontAt reader.segmentHeader reader.expectedSequence (file.drop offset) = .done)
    {calls : ℕ} {read : ReadBack} (hread : readRecords file calls reader = some read) :
    read = { records := []
             final := finalOf none reader.lastPosition
             lastPosition := reader.lastPosition } := by
  have hstep := readNext_step hopen hstream
  cases calls with
  | zero => cases hread
  | succ calls =>
    unfold readRecords at hread
    generalize reader.readNext file = outcome at hstep hread
    rw [hfront] at hstep
    cases hstep
    exact (Option.some.inj hread).symm

/-- At something that is no record the reading ends. -/
theorem readRecords_of_stop (hopen : reader.openResult.status = .recordRead)
    (hstream : Positioned file offset reader.file) {error : WalError}
    (hfront : frontAt reader.segmentHeader reader.expectedSequence (file.drop offset) =
      .stop error) {calls : ℕ} {read : ReadBack}
    (hread : readRecords file calls reader = some read) :
    read = { records := []
             final := finalOf (some error) reader.lastPosition
             lastPosition := reader.lastPosition } := by
  have hstep := readNext_step hopen hstream
  cases calls with
  | zero => cases hread
  | succ calls =>
    unfold readRecords at hread
    generalize reader.readNext file = outcome at hstep hread
    rw [hfront] at hstep
    cases hstep
    exact (Option.some.inj hread).symm

/-- A record is read first, and then the rest. -/
theorem readRecords_of_item (hopen : reader.openResult.status = .recordRead)
    (hstream : Positioned file offset reader.file) {view : WalRecordView} {next : UInt64}
    {size : ℕ}
    (hfront : frontAt reader.segmentHeader reader.expectedSequence (file.drop offset) =
      .item view next size) {calls : ℕ} {read : ReadBack}
    (hread : readRecords file calls reader = some read) :
    ∃ stream calls' read', Positioned file (offset + size) stream ∧
      readRecords file calls'
        { reader with file := stream, lastPosition := view.header.position } = some read' ∧
      read = { read' with records := view.record :: read'.records } := by
  have hstep := readNext_step hopen hstream
  cases calls with
  | zero => cases hread
  | succ calls =>
    unfold readRecords at hread
    generalize reader.readNext file = outcome at hstep hread
    rw [hfront] at hstep
    cases hstep with
    | item _ _ _ hpositioned =>
      simp only [Option.map_eq_some_iff] at hread
      obtain ⟨read', hread', rfl⟩ := hread
      exact ⟨_, _, _, hpositioned, hread', rfl⟩

/-- The numbers from this one on are what the reader expects, record after record. After a
record with the number zero it expects the first number again, so either there is no such
record or the first number is the one behind zero. -/
def CountsOn (segment : WalSegmentHeader) (expected : UInt64) (count : ℕ) : Prop :=
  segment.firstSequence = 1 ∨ ∀ i < count, expected + .ofNat i ≠ 0

/-- Numbers that do not run out are expected. -/
theorem countsOn_of_le {segment : WalSegmentHeader} {expected : UInt64} {count : ℕ}
    (hpos : expected ≠ 0) (hcount : expected.toNat + count ≤ 2 ^ 64) :
    CountsOn segment expected count := by
  refine Or.inr fun i hi hzero => ?_
  have hfirst : expected.toNat ≠ 0 := fun h => hpos (UInt64.toNat_inj.mp h)
  have hvalue := congrArg UInt64.toNat hzero
  rw [UInt64.toNat_add, UInt64.toNat_ofNat', UInt64.toNat_zero] at hvalue
  omega

theorem CountsOn.mono {segment : WalSegmentHeader} {expected : UInt64} {count count' : ℕ}
    (h : CountsOn segment expected count) (hle : count' ≤ count) :
    CountsOn segment expected count' :=
  h.imp_right fun hnonzero i hi => hnonzero i (by omega)

/-- The rest of the numbers is expected as well. -/
theorem CountsOn.next {segment : WalSegmentHeader} {expected : UInt64} {count : ℕ}
    (h : CountsOn segment expected (count + 1)) : CountsOn segment (expected + 1) count := by
  refine h.imp_right fun hnonzero i hi => ?_
  have hnext := hnonzero (i + 1) (by omega)
  rwa [UInt64.ofNat_add, UInt64.ofNat_one, UInt64.add_comm (.ofNat i), ← UInt64.add_assoc] at hnext

/-- Behind a record the reader expects the next number. -/
theorem CountsOn.expectedSequence {expected : UInt64} {count : ℕ} {stream : InputStream}
    (h : CountsOn reader.segmentHeader expected (count + 1)) {position : WalPosition}
    (hposition : position = ⟨reader.segmentHeader.streamId, reader.segmentHeader.epoch, expected⟩)
    (hstreamId : reader.segmentHeader.streamId ≠ 0) (hepoch : reader.segmentHeader.epoch ≠ 0) :
    WalSegmentReader.expectedSequence { reader with file := stream, lastPosition := position } =
      expected + 1 := by
  rw [WalSegmentReader.expectedSequence, hposition]
  by_cases hzero : expected = 0
  · rw [if_neg fun hvalid => hvalid.2.2 hzero, hzero]
    rcases h with hfirst | hnonzero
    · exact hfirst
    · exact absurd (by rw [hzero]; rfl) (hnonzero 0 (Nat.succ_pos count))
  · rw [if_pos ⟨hstreamId, hepoch, hzero⟩]

/-- A reader between two records reads the frames of the rest of the file. -/
theorem readRecords_of_frames {views : List WalRecordView} {size : ℕ} {ending : Option WalError}
    {segment : WalSegmentHeader} {expected : UInt64} {input : List UInt8}
    (hframes : Frames segment expected input views size ending)
    (hstreamId : segment.streamId ≠ 0) (hepoch : segment.epoch ≠ 0)
    (hopen : reader.openResult.status = .recordRead) (hsegment : reader.segmentHeader = segment)
    (hexpected : reader.expectedSequence = expected) (hinput : file.drop offset = input)
    (hstream : Positioned file offset reader.file) {calls : ℕ} {read : ReadBack}
    (hread : readRecords file calls reader = some read)
    (hcounts : CountsOn segment expected (min views.length read.records.length)) :
    read = { records := views.map WalRecordView.record
             final := finalOf ending (lastOf reader.lastPosition views)
             lastPosition := lastOf reader.lastPosition views } := by
  induction hframes generalizing offset reader calls read with
  | done hfront =>
    exact readRecords_of_done hopen hstream (by rw [hsegment, hexpected, hinput, hfront]) hread
  | stop hfront =>
    exact readRecords_of_stop hopen hstream (by rw [hsegment, hexpected, hinput, hfront]) hread
  | @item expected next input view size views rest ending hfront hrest ih =>
    obtain ⟨stream, calls', read', hpositioned, hread', rfl⟩ := readRecords_of_item hopen hstream
      (by rw [hsegment, hexpected, hinput, hfront]) hread
    obtain ⟨hposition, rfl⟩ := frontAt_item hfront
    rw [List.length_cons, List.length_cons, Nat.add_min_add_right] at hcounts
    have hdrop : file.drop (offset + size) = input.drop size := by
      rw [← hinput, List.drop_drop]
    have hexpected' : expectedSequence { reader with
        file := stream, lastPosition := view.header.position } = expected + 1 := by
      rw [← hsegment] at hcounts hposition hstreamId hepoch
      exact hcounts.expectedSequence hposition hstreamId hepoch
    have hrecords := @ih _
      { reader with file := stream, lastPosition := view.header.position } hopen hsegment
      hexpected' hdrop hpositioned _ _ hread' hcounts.next
    rw [hrecords, lastOf_cons, List.map_cons]

/-- Without a last position the first number is expected. -/
theorem expectedSequence_first (hlast : reader.lastPosition = {}) :
    reader.expectedSequence = reader.segmentHeader.firstSequence := by
  rw [expectedSequence, hlast]
  exact if_neg fun h => h.1 rfl

/-- Opening a segment with a valid header. -/
theorem create_of_valid (hvalid : SegmentHeaderValid file) :
    create (.file file) =
      { file := reading segmentHeaderSize segmentHeaderSize
        segmentHeader := segmentHeaderOf file
        openResult := { status := .recordRead } } := by
  have hread := read_segmentHeader hvalid.complete
  have hheader : WalSegmentHeader.ofBytes (file.take segmentHeaderSize) = segmentHeaderOf file :=
    rfl
  unfold create readSegmentHeader
  simp only [FileEntry.openRead, hread, hheader, reading_failed]
  rw [if_neg (by decide), if_neg (not_not.mpr hvalid.fields),
    if_neg (not_not.mpr hvalid.checksum)]

/-- Reading a wrong segment header fails. -/
theorem readSegmentHeader_of_invalid (hinvalid : ¬ SegmentHeaderValid file) :
    ∃ error opened, readSegmentHeader file { file := {} } =
      ({ status := .failed, error := error }, opened) ∧ opened.lastPosition = {} := by
  unfold readSegmentHeader
  dsimp only
  rcases Nat.lt_or_ge file.length segmentHeaderSize with hshort | hlong
  · have hread : InputStream.read file segmentHeaderSize {} = (file,
        { position := file.length, eof := true, fail := true, gcount := file.length - 0 }) :=
      read_of_lt (Nat.zero_le _) (by rw [Nat.zero_add]; exact hshort)
    have hfailed : (InputStream.read file segmentHeaderSize {}).2.failed = true := by
      rw [hread]
      rfl
    rw [if_pos hfailed]
    exact ⟨_, _, rfl, rfl⟩
  · have hread := read_segmentHeader hlong
    have hfailed : ¬ (InputStream.read file segmentHeaderSize {}).2.failed = true := by
      rw [hread]
      exact Bool.false_ne_true
    rw [if_neg hfailed, hread]
    split
    · exact ⟨_, _, rfl, rfl⟩
    split
    · exact ⟨_, _, rfl, rfl⟩
    · exact absurd ⟨hlong, not_not.mp ‹_›, not_not.mp ‹_›⟩ hinvalid

/-- A segment with a wrong header has no records. -/
theorem readAll_of_invalid (hinvalid : ¬ SegmentHeaderValid file) :
    ∃ error, readAll (.file file) = some {
      records := [], final := { status := .failed, error := error }, lastPosition := {} } := by
  obtain ⟨error, opened, hread, hlast⟩ := readSegmentHeader_of_invalid hinvalid
  have hcreate : create (.file file) =
      { opened with openResult := { status := .failed, error := error } } := by
    unfold create
    simp only [FileEntry.openRead, hread]
  refine ⟨error, ?_⟩
  unfold readAll readRecords readNext
  rw [hcreate, if_pos (by simp)]
  simp only [hlast]

/-- Reading a segment comes to an end, whatever is in the file. -/
theorem exists_readAll (file : List UInt8) : ∃ read, readAll (.file file) = some read := by
  by_cases hvalid : SegmentHeaderValid file
  · have hcreate := create_of_valid hvalid
    have hopen : (create (.file file)).openResult.status = .recordRead := by rw [hcreate]
    have hstream : Positioned file segmentHeaderSize (create (.file file)).file := by
      rw [hcreate]
      exact .inl ⟨hvalid.complete, _, rfl⟩
    have hcalls : file.length - segmentHeaderSize < file.length + 1 := by omega
    exact exists_readRecords hopen hstream hcalls
  · obtain ⟨error, hread⟩ := readAll_of_invalid hvalid
    exact ⟨_, hread⟩

/-- A fresh reader reads the frames behind the segment header. -/
theorem readAll_of_frames (hvalid : SegmentHeaderValid file) {views : List WalRecordView}
    {size : ℕ} {ending : Option WalError}
    (hframes : Frames (segmentHeaderOf file) (segmentHeaderOf file).firstSequence
      (file.drop segmentHeaderSize) views size ending) {read : ReadBack}
    (hread : readAll (.file file) = some read)
    (hcounts : CountsOn (segmentHeaderOf file) (segmentHeaderOf file).firstSequence
      (min views.length read.records.length)) :
    read = { records := views.map WalRecordView.record
             final := finalOf ending (lastOf {} views)
             lastPosition := lastOf {} views } := by
  obtain ⟨-, -, -, hstreamId, hepoch, -⟩ := hvalid.fields
  unfold readAll at hread
  rw [create_of_valid hvalid] at hread
  exact readRecords_of_frames hframes hstreamId hepoch rfl rfl (expectedSequence_first rfl) rfl
    (.inl ⟨hvalid.complete, _, rfl⟩) hread hcounts

end WalSegmentReader

end Wal
