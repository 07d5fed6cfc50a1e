import MatchingEngine.Wal.ReadFaults

/-!
# The lengths in an accepted record header

`has_valid_static_fields` adds the size of the header to the payload length in 32 bits,
whereas both parsers take it away from the record length in 64 bits. The sums agree
unless the one in 32 bits wraps around, which it does for the seven largest payload
lengths.
-/

namespace Wal

open InputStream WalSegmentScanner

/-- A reader that returns the record has moved on by the length of the record. -/
def WalRecordHeader.ReaderConsumes (h : WalRecordHeader) : Prop :=
  ∀ (file : List UInt8) (reader reader' : WalSegmentReader) (result : WalReadResult)
    (view : WalRecordView), reader.readNext file = (result, some view, reader') →
    view.header = h → reader.file.position + h.recordLength.toNat ≤ file.length →
    reader'.file.position = reader.file.position + h.recordLength.toNat

/-- A round of a scan at the record either ends there or moves on by the length of the
record. -/
def WalRecordHeader.ScannerConsumes (h : WalRecordHeader) : Prop :=
  ∀ (file : List UInt8) (segment : WalSegmentHeader) (rounds : ℕ) (expected : UInt64)
    (result : WalSegmentScanResult) (offset gcount : ℕ) (faults : List (Option ℕ)),
    WalRecordHeader.ofBytes ((file.drop offset).take recordHeaderSize) = h →
    offset + h.recordLength.toNat ≤ file.length →
    let after := scanLoop file segment (rounds + 1) expected result
      (readingWith offset gcount faults)
    after = incompleteAt offset result ∨ after = corruptedAt offset result ∨
      ∃ gcount' faults', after = scanLoop file segment rounds (expected + 1)
        { result with
          lastValidPosition := h.position
          lastValidOffset := offset + h.recordLength.toNat }
        (readingWith (offset + h.recordLength.toNat) gcount' faults')

/-- The lengths of the header mean what they say: the record has room for header and
payload, the rest of it is padding of at most seven bytes, and both parsers take the
whole record from the file. -/
structure WalRecordHeader.LengthsSound (h : WalRecordHeader) : Prop where
  covers : recordHeaderSize + h.payloadLength.toNat ≤ h.recordLength.toNat
  padding_eq : recordHeaderSize + h.payloadLength.toNat + h.padding.toNat = h.recordLength.toNat
  padding_le : h.padding.toNat ≤ 7
  reader : h.ReaderConsumes
  scanner : h.ScannerConsumes

namespace WalRecordHeader

variable {h : WalRecordHeader}

/-- The sum of the sizes in 32 bits. -/
theorem rawLength_toNat (h : WalRecordHeader) :
    (UInt32.ofNat recordHeaderSize + h.payloadLength).toNat =
      (recordHeaderSize + h.payloadLength.toNat) % 2 ^ 32 :=
  UInt32.toNat_add _ _

/-- The record length of an accepted header is the sum rounded up, and no step of the
rounding wraps around. -/
theorem recordLength_eq (haccepted : h.hasValidStaticFields) :
    h.recordLength.toNat = ((recordHeaderSize + h.payloadLength.toNat) % 2 ^ 32 + 7) / 8 * 8 := by
  obtain ⟨-, -, -, hroom, -, hlength⟩ := haccepted
  have hmod := alignUp_toNat_mod (UInt32.ofNat recordHeaderSize + h.payloadLength)
  rw [← hlength, rawLength_toNat] at hmod
  unfold recordHeaderSize at hroom hmod ⊢
  omega

/-- The lengths agree exactly when the sum of the sizes does not wrap around. -/
theorem covers_iff (haccepted : h.hasValidStaticFields) :
    recordHeaderSize + h.payloadLength.toNat ≤ h.recordLength.toNat ↔
      recordHeaderSize + h.payloadLength.toNat < 2 ^ 32 := by
  have hlength := recordLength_eq haccepted
  have hlt := h.recordLength.toNat_lt
  have hpayload := h.payloadLength.toNat_lt
  constructor
  · intro hcovers
    omega
  · intro hsum
    rw [Nat.mod_eq_of_lt hsum] at hlength
    omega

/-- The frame of a header whose lengths agree is the record. -/
theorem frameSize_eq (hcovers : recordHeaderSize + h.payloadLength.toNat ≤ h.recordLength.toNat) :
    recordHeaderSize + h.payloadLength.toNat + h.padding.toInt64.toInt.toNat =
      h.recordLength.toNat := by
  have hpadding := padding_toNat hcovers
  have hlt := h.recordLength.toNat_lt
  rw [toInt64_toInt (by rw [hpadding]; omega), hpadding, Int.toNat_natCast]
  omega

end WalRecordHeader

/-! ## The reader -/

namespace WalSegmentReader

variable {file : List UInt8} {reader : WalSegmentReader} {offset gcount : ℕ}
  {faults : List (Option ℕ)}

/-- A record header that was read was taken from the file. -/
theorem readRecordHeader_of_recordRead
    (hinside : reader.file.position + recordHeaderSize ≤ file.length)
    (hread : (reader.readRecordHeader file).1.status = .recordRead) :
    ∃ gcount faults, (reader.readRecordHeader file).2.2 = { reader with
      file := readingWith (reader.file.position + recordHeaderSize) gcount faults } := by
  by_cases hcount : (reader.file.read file recordHeaderSize).2.gcount = recordHeaderSize
  · obtain ⟨-, hdelivered⟩ := read_of_gcount (by decide) hinside hcount
    refine ⟨recordHeaderSize, reader.file.faults.drop 1, ?_⟩
    unfold readRecordHeader
    dsimp only
    rw [hdelivered]
    split_ifs with hend
    · exact absurd hend.1 (Nat.succ_ne_zero _)
    all_goals rfl
  · unfold readRecordHeader at hread
    dsimp only at hread
    rw [if_pos hcount] at hread
    split at hread <;> cases hread

/-- A payload that was read was taken from the file. -/
theorem readPayload_of_recordRead {header : WalRecordHeader}
    (hfile : reader.file = readingWith offset gcount faults)
    (hinside : offset + header.payloadLength.toNat ≤ file.length)
    (hread : (reader.readPayload file header).1.status = .recordRead) :
    ∃ gcount faults, (reader.readPayload file header).2.2 = { reader with
      file := readingWith (offset + header.payloadLength.toNat) gcount faults } := by
  have hpayload := @WalSegmentScanner.payload_with_faults file offset faults gcount header
    hinside _ rfl
  unfold readPayload at hread ⊢
  rw [hfile] at hread ⊢
  dsimp only at hread ⊢
  by_cases hclean : Clean header.payloadRequests faults
  · rw [if_pos hclean] at hpayload
    obtain ⟨hcomplete, gcount', hpayload⟩ := hpayload
    rw [if_neg hcomplete, hpayload]
    refine ⟨gcount', faults.drop header.payloadRequests, ?_⟩
    split <;> rfl
  · rw [if_neg hclean] at hpayload
    rw [if_pos hpayload] at hread
    cases hread

/-- A record was returned: its header and its payload were read and its padding was skipped. -/
theorem readNext_some {result : WalReadResult} {view : WalRecordView} {reader' : WalSegmentReader}
    (hread : reader.readNext file = (result, some view, reader')) :
    (reader.readRecordHeader file).1.status = .recordRead ∧
      view.header = (reader.readRecordHeader file).2.1 ∧
      ((reader.readRecordHeader file).2.2.readPayload file view.header).1.status = .recordRead ∧
      (reader'.file = if view.header.padding ≠ 0
        then ((reader.readRecordHeader file).2.2.readPayload file view.header).2.2.file.ignore file
          view.header.padding.toInt64.toInt
        else ((reader.readRecordHeader file).2.2.readPayload file view.header).2.2.file) ∧
      ¬ (view.header.padding ≠ 0 ∧ reader'.file.failed = true) := by
  unfold readNext at hread
  dsimp only at hread
  generalize reader.readRecordHeader file = headerRead at hread ⊢
  by_cases hopen : reader.openResult.status = .recordRead
  swap
  · rw [if_pos hopen] at hread
    cases hread
  by_cases hfailed : reader.file.failed = true
  · rw [if_neg (not_not.mpr hopen), if_pos hfailed] at hread
    cases hread
  rw [if_neg (not_not.mpr hopen), if_neg hfailed] at hread
  by_cases hheader : headerRead.1.status = .recordRead
  swap
  · rw [if_pos hheader] at hread
    cases hread
  rw [if_neg (not_not.mpr hheader)] at hread
  by_cases hpayload : (headerRead.2.2.readPayload file headerRead.2.1).1.status = .recordRead
  swap
  · rw [if_pos hpayload] at hread
    cases hread
  rw [if_neg (not_not.mpr hpayload)] at hread
  by_cases hpadding : headerRead.2.1.padding = 0
  · simp only [hpadding, ne_eq, not_true_eq_false, false_and, if_false, Prod.mk.injEq,
      Option.some.injEq] at hread
    obtain ⟨-, rfl, rfl⟩ := hread
    exact ⟨hheader, rfl, hpayload, (if_neg (not_not.mpr hpadding)).symm, fun h => h.1 hpadding⟩
  · rw [if_pos hpadding] at hread
    split at hread
    · simp at hread
    · rename_i hskipped
      simp only [Prod.mk.injEq, Option.some.injEq] at hread
      obtain ⟨-, rfl, rfl⟩ := hread
      exact ⟨hheader, rfl, hpayload, (if_pos hpadding).symm, hskipped⟩

end WalSegmentReader

namespace WalRecordHeader

variable {h : WalRecordHeader}

/-- The reader takes a record from the file whose lengths agree. -/
theorem readerConsumes
    (hcovers : recordHeaderSize + h.payloadLength.toNat ≤ h.recordLength.toNat) :
    h.ReaderConsumes := by
  intro file reader reader' result view hread hview hinside
  have hsize := frameSize_eq hcovers
  obtain ⟨hheader, hsame, hpayload, hfile, hskipped⟩ := WalSegmentReader.readNext_some hread
  obtain ⟨_, _, hbehindHeader⟩ :=
    WalSegmentReader.readRecordHeader_of_recordRead (by omega) hheader
  rw [hview] at hpayload hfile hskipped
  rw [hbehindHeader] at hpayload hfile
  obtain ⟨gcount, faults, hbehindPayload⟩ :=
    WalSegmentReader.readPayload_of_recordRead rfl (by omega) hpayload
  rw [hbehindPayload] at hfile
  have hpadding := @padding_with_faults file _ faults gcount h
    (show reader.file.position + recordHeaderSize + h.payloadLength.toNat + _ ≤ _ by omega) _ hfile
  by_cases hclean : Clean h.paddingRequests faults
  · rw [if_pos hclean] at hpadding
    obtain ⟨-, gcount', hend⟩ := hpadding
    rw [hend, ← hsize]
    change reader.file.position + _ + _ + _ = _
    omega
  · rw [if_neg hclean] at hpadding
    exact absurd hpadding hskipped

/-- The scanner takes a record from the file whose lengths agree. -/
theorem scannerConsumes
    (hcovers : recordHeaderSize + h.payloadLength.toNat ≤ h.recordLength.toNat) :
    h.ScannerConsumes := by
  intro file segment rounds expected result offset gcount faults hheader hinside
  have hsize := frameSize_eq hcovers
  dsimp only
  by_cases hclean : Clean 1 faults
  swap
  · exact .inl (scanLoop_of_not_clean hclean rounds gcount expected result)
  rw [scanLoop_of_clean hclean (by omega) hheader.symm]
  cases h.refusal segment expected with
  | some error => exact .inr (.inl rfl)
  | none =>
    dsimp only
    by_cases hchecksum : calculateCrc32 ((file.drop (offset + recordHeaderSize)).take
        h.payloadLength.toNat) = h.payloadCrc
    · have hpayload := @scanPayload_with_faults file _ (faults.drop 1) offset recordHeaderSize h
        (by omega) hchecksum result (scanLoop file segment rounds (expected + 1))
      by_cases hrest : Clean (h.payloadRequests + h.paddingRequests) (faults.drop 1)
      · rw [if_pos hrest] at hpayload
        obtain ⟨gcount', hpayload⟩ := hpayload
        have hend : offset + recordHeaderSize + h.payloadLength.toNat +
            h.padding.toInt64.toInt.toNat = offset + h.recordLength.toNat := by omega
        rw [hend] at hpayload
        exact .inr (.inr ⟨gcount', _, hpayload⟩)
      · rw [if_neg hrest] at hpayload
        exact .inl hpayload
    · have hread := @payload_with_faults file _ (faults.drop 1) recordHeaderSize h
        (show offset + recordHeaderSize + _ ≤ _ by omega) _ rfl
      unfold scanPayload
      dsimp only
      by_cases hpayload : Clean h.payloadRequests (faults.drop 1)
      · rw [if_pos hpayload] at hread
        obtain ⟨hcomplete, gcount', hread⟩ := hread
        rw [if_neg hcomplete, hread, if_pos hchecksum]
        exact .inr (.inl rfl)
      · rw [if_neg hpayload] at hread
        rw [if_pos hread]
        exact .inl rfl

/-- When the sum wraps around, the record has 56 bytes and the payload length is one of the
seven largest numbers. -/
theorem lengths_of_wrap (haccepted : h.hasValidStaticFields)
    (hwrap : 2 ^ 32 ≤ recordHeaderSize + h.payloadLength.toNat) :
    h.recordLength.toNat = recordHeaderSize ∧ 2 ^ 32 - 7 ≤ h.payloadLength.toNat := by
  have hlength := recordLength_eq haccepted
  have hpayload := h.payloadLength.toNat_lt
  obtain ⟨-, -, -, hroom, -, -⟩ := haccepted
  unfold recordHeaderSize at *
  constructor
  · omega
  · omega

/-- The lengths of an accepted header mean what they say exactly when header and payload
together are less than 2^32 bytes. -/
theorem lengthsSound_iff (haccepted : h.hasValidStaticFields) :
    h.LengthsSound ↔ recordHeaderSize + h.payloadLength.toNat < 2 ^ 32 := by
  constructor
  · exact fun hsound => (covers_iff haccepted).mp hsound.covers
  · intro hlt
    have hcovers := (covers_iff haccepted).mpr hlt
    have hlength := recordLength_eq haccepted
    have hpadding := padding_toNat hcovers
    rw [Nat.mod_eq_of_lt hlt] at hlength
    exact ⟨hcovers, by omega, by omega, readerConsumes hcovers, scannerConsumes hcovers⟩

/-- A header with a payload of five bytes, as the writer makes it. -/
theorem lengthsSound_five :
    ({ recordLength := 64, payloadLength := 5 } : WalRecordHeader).LengthsSound :=
  (lengthsSound_iff (by decide)).mpr (by decide)

/-- A header that announces a payload of almost four gigabytes in a record of 56 bytes is
accepted. -/
theorem not_lengthsSound_wrapped :
    ({ recordLength := 56, payloadLength := 0xFFFFFFFF } : WalRecordHeader).hasValidStaticFields ∧
      ¬ ({ recordLength := 56, payloadLength := 0xFFFFFFFF } : WalRecordHeader).LengthsSound :=
  ⟨by decide, fun hsound => absurd hsound.covers (by decide)⟩

end WalRecordHeader

end Wal
