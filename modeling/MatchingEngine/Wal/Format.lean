import MatchingEngine.Library.Crc
import MatchingEngine.Library.LittleEndian

/-!
# The segment format

`wal_types.hpp`, `wal_error.hpp`, `wal_position`, `wal_segment_header`,
`wal_record_header`, `wal_alignment` and `wal_checksum`. The headers are written to the
file as they lie in memory on a little-endian machine: the fields in their order,
without gaps, and four bytes after the last field of a record header that no field
covers.
-/

namespace Wal

/-- `WalRecordMagic`. -/
def walRecordMagic : UInt32 := 0x57414C52

/-- `WalSegmentMagic`. -/
def walSegmentMagic : UInt32 := 0x57414C53

/-- `WalFormatVersion`. -/
def walFormatVersion : UInt16 := 1

/-- `DefaultRecordAlignment`. -/
def defaultRecordAlignment : UInt32 := 8

/-- `sizeof(WalSegmentHeader)`. -/
def segmentHeaderSize : ℕ := 40

/-- `sizeof(WalRecordHeader)`. -/
def recordHeaderSize : ℕ := 56

/-- `WalError`. -/
inductive WalError where
  | none
  | cannotOpenFile
  | cannotReadFile
  | cannotWriteFile
  | cannotFlushFile
  | cannotSyncFile
  | invalidSegmentHeader
  | invalidRecordHeader
  | invalidMagic
  | unsupportedVersion
  | invalidRecordLength
  | invalidPayloadLength
  | payloadChecksumMismatch
  | headerChecksumMismatch
  | unexpectedSequence
  | unknownRecordType
  | payloadSizeMismatch
  | recordTypeMismatch
  | incompleteTrailingRecord
  | corruptedMiddleRecord
  | endOfLog
  deriving DecidableEq

/-- `WalPosition`. -/
structure WalPosition where
  streamId : UInt64 := 0
  epoch : UInt64 := 0
  sequence : UInt64 := 0
  deriving DecidableEq

/-- `WalPosition::is_valid`. -/
def WalPosition.isValid (p : WalPosition) : Prop :=
  p.streamId ≠ 0 ∧ p.epoch ≠ 0 ∧ p.sequence ≠ 0

instance (p : WalPosition) : Decidable p.isValid := inferInstanceAs (Decidable (_ ∧ _))

/-! ## Checksum and alignment -/

/-- The loop body over the bits in `calculate_crc32`. -/
def crcBit (crc : UInt32) : UInt32 :=
  let mask := 0 - (crc &&& 1)
  (crc >>> 1) ^^^ (0xEDB88320 &&& mask)

/-- The loop body over the bytes in `calculate_crc32`. -/
def crcByte (crc : UInt32) (byte : UInt8) : UInt32 :=
  crcBit^[8] (crc ^^^ byte.toUInt32)

/-- `calculate_crc32`. -/
def calculateCrc32 (bytes : List UInt8) : UInt32 :=
  ~~~ bytes.foldl crcByte 0xFFFFFFFF

/-- The polynomial of the checksum. -/
def crcPolynomial : BitVec 32 := 0xEDB88320

/-- The bit loop is the register step: the mask is all ones when the low bit is set. -/
theorem crcBit_toBitVec (crc : UInt32) :
    (crcBit crc).toBitVec = Crc.bitStep crcPolynomial crc.toBitVec := by
  have hlow : (crc &&& 1).toBitVec = BitVec.setWidth 32 (BitVec.ofBool (crc.toBitVec.getLsbD 0)) :=
    BitVec.and_one_eq_setWidth_ofBool_getLsbD
  have hmask : (0 - (crc &&& 1)).toBitVec =
      if crc.toBitVec.getLsbD 0 then BitVec.allOnes 32 else 0 := by
    rw [UInt32.toBitVec_sub, hlow]
    cases crc.toBitVec.getLsbD 0 <;> rfl
  unfold crcBit Crc.bitStep
  rw [UInt32.toBitVec_xor, UInt32.toBitVec_and, hmask]
  congr 1
  cases crc.toBitVec.getLsbD 0 <;> rfl

/-- The byte loop is the register step on bytes. -/
theorem crcByte_toBitVec (crc : UInt32) (byte : UInt8) :
    (crcByte crc byte).toBitVec = Crc.byteStep crcPolynomial crc.toBitVec byte := by
  have hiterate : ∀ (n : ℕ) (c : UInt32),
      (crcBit^[n] c).toBitVec = (Crc.bitStep crcPolynomial)^[n] c.toBitVec := by
    intro n
    induction n with
    | zero => exact fun _ => rfl
    | succ n ih =>
      intro c
      rw [Function.iterate_succ_apply, Function.iterate_succ_apply, ih, crcBit_toBitVec]
  unfold crcByte Crc.byteStep
  rw [hiterate]
  rfl

/-- The checksum is the complement of the register after the bytes. -/
theorem calculateCrc32_toBitVec (bytes : List UInt8) :
    (calculateCrc32 bytes).toBitVec =
      ~~~ Crc.remainder crcPolynomial 0xFFFFFFFF#32 bytes := by
  have hfold : ∀ crc : UInt32, (bytes.foldl crcByte crc).toBitVec =
      Crc.remainder crcPolynomial crc.toBitVec bytes := by
    intro crc
    unfold Crc.remainder
    induction bytes generalizing crc with
    | nil => rfl
    | cons byte bytes ih => rw [List.foldl_cons, List.foldl_cons, ih, crcByte_toBitVec]
  unfold calculateCrc32
  rw [UInt32.toBitVec_not, hfold]
  rfl

/-- One changed byte changes the checksum. -/
theorem calculateCrc32_ne_of_differsAt {i : ℕ} {xs ys : List UInt8} (h : DiffersAt i xs ys) :
    calculateCrc32 xs ≠ calculateCrc32 ys := by
  intro heq
  have hbits := congrArg UInt32.toBitVec heq
  rw [calculateCrc32_toBitVec, calculateCrc32_toBitVec] at hbits
  exact Crc.remainder_ne_of_differsAt (by decide) (by decide) _ h (BitVec.not_inj.mp hbits)

/-- A burst of changes within four consecutive bytes changes the checksum. -/
theorem calculateCrc32_ne_of_burst {xs ys : List UInt8} (hlength : xs.length = ys.length)
    (hne : xs ≠ ys) {start : ℕ} (hwithin : ∀ i, xs[i]? ≠ ys[i]? → start ≤ i ∧ i < start + 4) :
    calculateCrc32 xs ≠ calculateCrc32 ys := by
  intro heq
  have hbits := congrArg UInt32.toBitVec heq
  rw [calculateCrc32_toBitVec, calculateCrc32_toBitVec] at hbits
  exact Crc.remainder_ne_of_burst (by decide) _ hlength hne (by decide) hwithin
    (BitVec.not_inj.mp hbits)

/-- Four bytes in the middle of a message, all changed. -/
theorem calculateCrc32_ne_of_burst_middle :
    calculateCrc32 [1, 2, 3, 4, 5, 6] ≠ calculateCrc32 [1, 0xF2, 0xF3, 0xF4, 0xF5, 6] :=
  @calculateCrc32_ne_of_burst _ _ rfl (by decide) 1 fun i hi => by
    by_contra hout
    obtain rfl | rfl | hbehind : i = 0 ∨ i = 5 ∨ 6 ≤ i := by omega
    · exact hi rfl
    · exact hi rfl
    · exact hi (by rw [List.getElem?_eq_none hbehind, List.getElem?_eq_none hbehind])

/-- A byte of a block with a checksum inside it is changed. If the checksum was right,
the new one is wrong, wherever the byte is. -/
theorem checksum_detects {front front' back back' : List UInt8} {stored stored' : UInt32} {i : ℕ}
    (hfront : front'.length = front.length)
    (hchange : DiffersAt i (front ++ LittleEndian.encode 4 stored.toNat ++ back)
      (front' ++ LittleEndian.encode 4 stored'.toNat ++ back'))
    (hstored : stored = calculateCrc32 (front ++ LittleEndian.encode 4 0 ++ back)) :
    stored' ≠ calculateCrc32 (front' ++ LittleEndian.encode 4 0 ++ back') := by
  intro hstored'
  rw [List.append_assoc, List.append_assoc] at hchange
  rcases hchange.append_cases with ⟨_, hin, heq⟩ | ⟨_, _, hin, heq⟩
  · -- The byte is before the checksum, which is unchanged.
    obtain ⟨rfl, hrest⟩ := List.append_inj heq (by rw [hfront, hin.length_eq])
    obtain ⟨hcrc, rfl⟩ := List.append_inj hrest (by rw [LittleEndian.encode_length,
      LittleEndian.encode_length])
    have hsame : stored' = stored :=
      UInt32.toNat_inj.mp ((LittleEndian.encode_inj stored'.toNat_lt stored.toNat_lt).mp hcrc)
    rw [hsame, hstored, List.append_assoc, List.append_assoc] at hstored'
    exact calculateCrc32_ne_of_differsAt (hin.append_right _) hstored'
  · obtain ⟨rfl, rfl⟩ := List.append_inj heq hfront
    rcases hin.append_cases with ⟨_, hcrc, heq'⟩ | ⟨_, _, hback, heq'⟩
    · -- The byte is in the checksum and what it covers is unchanged.
      obtain ⟨rfl, rfl⟩ := List.append_inj heq' (by rw [← hcrc.length_eq,
        LittleEndian.encode_length, LittleEndian.encode_length])
      rw [← hstored] at hstored'
      exact hcrc.ne (by rw [hstored'])
    · -- The byte is behind the checksum, which is unchanged.
      obtain ⟨hcrc, rfl⟩ := List.append_inj heq' (by rw [LittleEndian.encode_length,
        LittleEndian.encode_length])
      have hsame : stored' = stored :=
        UInt32.toNat_inj.mp ((LittleEndian.encode_inj stored'.toNat_lt stored.toNat_lt).mp hcrc)
      rw [hsame, hstored] at hstored'
      exact calculateCrc32_ne_of_differsAt (hback.append_left _) hstored'

/-- `align_up`. -/
def alignUp (value alignment : UInt32) : UInt32 :=
  if alignment = 0 then value
  else
    let remainder := value % alignment
    if remainder = 0 then value else value + (alignment - remainder)

/-- `padding_for`. -/
def paddingFor (value alignment : UInt32) : UInt32 := alignUp value alignment - value

/-! ## Headers -/

/-- `WalSegmentHeader`. -/
structure WalSegmentHeader where
  magic : UInt32 := walSegmentMagic
  version : UInt16 := walFormatVersion
  headerSize : UInt16 := 40
  streamId : UInt64 := 0
  epoch : UInt64 := 0
  firstSequence : UInt64 := 1
  flags : UInt32 := 0
  headerCrc : UInt32 := 0
  deriving DecidableEq

/-- `WalRecordHeader`. -/
structure WalRecordHeader where
  magic : UInt32 := walRecordMagic
  version : UInt16 := walFormatVersion
  headerSize : UInt16 := 56
  recordLength : UInt32 := 0
  recordType : UInt32 := 0
  streamId : UInt64 := 0
  epoch : UInt64 := 0
  sequence : UInt64 := 0
  payloadLength : UInt32 := 0
  payloadCrc : UInt32 := 0
  headerCrc : UInt32 := 0
  /-- The four bytes of the struct after its last field. -/
  tailPadding : UInt32 := 0
  deriving DecidableEq

namespace WalSegmentHeader

/-- The sizes of the fields. -/
def widths : List ℕ := [4, 2, 2, 8, 8, 8, 4, 4]

/-- The fields as numbers. -/
def values (h : WalSegmentHeader) : List ℕ :=
  [h.magic.toNat, h.version.toNat, h.headerSize.toNat, h.streamId.toNat, h.epoch.toNat,
    h.firstSequence.toNat, h.flags.toNat, h.headerCrc.toNat]

/-- The header in memory. -/
def toBytes (h : WalSegmentHeader) : List UInt8 := LittleEndian.pack widths h.values

/-- The header whose memory the bytes were read into. -/
def ofBytes (bytes : List UInt8) : WalSegmentHeader :=
  match LittleEndian.unpack widths bytes with
  | [magic, version, headerSize, streamId, epoch, firstSequence, flags, headerCrc] =>
    { magic := .ofNat magic
      version := .ofNat version
      headerSize := .ofNat headerSize
      streamId := .ofNat streamId
      epoch := .ofNat epoch
      firstSequence := .ofNat firstSequence
      flags := .ofNat flags
      headerCrc := .ofNat headerCrc }
  | _ => {}

/-- `WalSegmentHeader::has_valid_static_fields`. -/
def hasValidStaticFields (h : WalSegmentHeader) : Prop :=
  h.magic = walSegmentMagic
    ∧ h.version = walFormatVersion
    ∧ h.headerSize = .ofNat segmentHeaderSize
    ∧ h.streamId ≠ 0
    ∧ h.epoch ≠ 0
    ∧ h.firstSequence ≠ 0

instance (h : WalSegmentHeader) : Decidable h.hasValidStaticFields :=
  inferInstanceAs (Decidable (_ ∧ _))

/-- `calculate_segment_header_crc`. -/
def calculateSegmentHeaderCrc (h : WalSegmentHeader) : UInt32 :=
  calculateCrc32 { h with headerCrc := 0 }.toBytes

/-- Every field fits its place. -/
theorem values_fit (h : WalSegmentHeader) :
    List.Forall₂ (fun width value => value < 256 ^ width) widths h.values :=
  .cons h.magic.toNat_lt (.cons h.version.toNat_lt (.cons h.headerSize.toNat_lt
  (.cons h.streamId.toNat_lt (.cons h.epoch.toNat_lt (.cons h.firstSequence.toNat_lt
  (.cons h.flags.toNat_lt (.cons h.headerCrc.toNat_lt .nil)))))))

@[simp] theorem toBytes_length (h : WalSegmentHeader) : h.toBytes.length = segmentHeaderSize :=
  LittleEndian.pack_length rfl

/-- A header written to a file is read back. -/
@[simp] theorem ofBytes_toBytes (h : WalSegmentHeader) : ofBytes h.toBytes = h := by
  unfold ofBytes toBytes
  rw [LittleEndian.unpack_pack h.values_fit]
  simp [values]

/-- The fields that were read are the ones in the bytes. -/
theorem values_ofBytes {bytes : List UInt8} (h : bytes.length = segmentHeaderSize) :
    (ofBytes bytes).values = LittleEndian.unpack widths bytes := by
  have hfits : List.Forall₂ _ widths (LittleEndian.unpack widths bytes) :=
    LittleEndian.unpack_fits h
  unfold ofBytes
  generalize LittleEndian.unpack widths bytes = fields at hfits
  rcases hfits with
    _ | ⟨h1, _ | ⟨h2, _ | ⟨h3, _ | ⟨h4, _ | ⟨h5, _ | ⟨h6, _ | ⟨h7, _ | ⟨h8,
    _ | _⟩⟩⟩⟩⟩⟩⟩⟩
  simp only [values,
    UInt32.toNat_ofNat_of_lt' h1, UInt16.toNat_ofNat_of_lt' h2, UInt16.toNat_ofNat_of_lt' h3,
    UInt64.toNat_ofNat_of_lt' h4, UInt64.toNat_ofNat_of_lt' h5, UInt64.toNat_ofNat_of_lt' h6,
    UInt32.toNat_ofNat_of_lt' h7, UInt32.toNat_ofNat_of_lt' h8]

/-- Bytes read into a header are its memory. -/
theorem toBytes_ofBytes {bytes : List UInt8} (h : bytes.length = segmentHeaderSize) :
    (ofBytes bytes).toBytes = bytes := by
  unfold toBytes
  rw [values_ofBytes h]
  exact LittleEndian.pack_unpack h

/-- The memory before the checksum. -/
def checked (h : WalSegmentHeader) : List UInt8 :=
  LittleEndian.pack (widths.take 7) (h.values.take 7)

theorem toBytes_eq (h : WalSegmentHeader) :
    h.toBytes = h.checked ++ LittleEndian.encode 4 h.headerCrc.toNat ++ [] := by
  simp [toBytes, checked, widths, values]

@[simp] theorem checked_length (h : WalSegmentHeader) : h.checked.length = 36 :=
  LittleEndian.pack_length rfl

theorem calculateSegmentHeaderCrc_eq (h : WalSegmentHeader) :
    h.calculateSegmentHeaderCrc =
      calculateCrc32 (h.checked ++ LittleEndian.encode 4 0 ++ []) :=
  congrArg calculateCrc32 (toBytes_eq { h with headerCrc := 0 })

end WalSegmentHeader

namespace WalRecordHeader

/-- The sizes of the fields. -/
def widths : List ℕ := [4, 2, 2, 4, 4, 8, 8, 8, 4, 4, 4, 4]

/-- The fields as numbers. -/
def values (h : WalRecordHeader) : List ℕ :=
  [h.magic.toNat, h.version.toNat, h.headerSize.toNat, h.recordLength.toNat,
    h.recordType.toNat, h.streamId.toNat, h.epoch.toNat, h.sequence.toNat,
    h.payloadLength.toNat, h.payloadCrc.toNat, h.headerCrc.toNat, h.tailPadding.toNat]

/-- The header in memory. -/
def toBytes (h : WalRecordHeader) : List UInt8 := LittleEndian.pack widths h.values

/-- The header whose memory the bytes were read into. -/
def ofBytes (bytes : List UInt8) : WalRecordHeader :=
  match LittleEndian.unpack widths bytes with
  | [magic, version, headerSize, recordLength, recordType, streamId, epoch, sequence,
      payloadLength, payloadCrc, headerCrc, tailPadding] =>
    { magic := .ofNat magic
      version := .ofNat version
      headerSize := .ofNat headerSize
      recordLength := .ofNat recordLength
      recordType := .ofNat recordType
      streamId := .ofNat streamId
      epoch := .ofNat epoch
      sequence := .ofNat sequence
      payloadLength := .ofNat payloadLength
      payloadCrc := .ofNat payloadCrc
      headerCrc := .ofNat headerCrc
      tailPadding := .ofNat tailPadding }
  | _ => {}

/-- `WalRecordHeader::has_valid_static_fields`. -/
def hasValidStaticFields (h : WalRecordHeader) : Prop :=
  let expectedRecordLength := alignUp (.ofNat recordHeaderSize + h.payloadLength)
    defaultRecordAlignment
  h.magic = walRecordMagic
    ∧ h.version = walFormatVersion
    ∧ h.headerSize = .ofNat recordHeaderSize
    ∧ h.recordLength.toNat ≥ recordHeaderSize
    ∧ h.recordLength % defaultRecordAlignment = 0
    ∧ h.recordLength = expectedRecordLength

instance (h : WalRecordHeader) : Decidable h.hasValidStaticFields :=
  inferInstanceAs (Decidable (_ ∧ _))

/-- `calculate_record_header_crc`. -/
def calculateRecordHeaderCrc (h : WalRecordHeader) : UInt32 :=
  calculateCrc32 { h with headerCrc := 0 }.toBytes

/-- The position of the record. -/
def position (h : WalRecordHeader) : WalPosition := ⟨h.streamId, h.epoch, h.sequence⟩

/-- The padding after the payload, which both parsers compute as a `std::size_t` and
pass on as a `std::streamsize`. -/
def padding (h : WalRecordHeader) : UInt64 :=
  h.recordLength.toUInt64 - .ofNat recordHeaderSize - h.payloadLength.toUInt64

/-- Every field fits its place. -/
theorem values_fit (h : WalRecordHeader) :
    List.Forall₂ (fun width value => value < 256 ^ width) widths h.values :=
  .cons h.magic.toNat_lt (.cons h.version.toNat_lt (.cons h.headerSize.toNat_lt
  (.cons h.recordLength.toNat_lt (.cons h.recordType.toNat_lt (.cons h.streamId.toNat_lt
  (.cons h.epoch.toNat_lt (.cons h.sequence.toNat_lt (.cons h.payloadLength.toNat_lt
  (.cons h.payloadCrc.toNat_lt (.cons h.headerCrc.toNat_lt (.cons h.tailPadding.toNat_lt
  .nil)))))))))))

@[simp] theorem toBytes_length (h : WalRecordHeader) : h.toBytes.length = recordHeaderSize :=
  LittleEndian.pack_length rfl

/-- A header written to a file is read back. -/
@[simp] theorem ofBytes_toBytes (h : WalRecordHeader) : ofBytes h.toBytes = h := by
  unfold ofBytes toBytes
  rw [LittleEndian.unpack_pack h.values_fit]
  simp [values]

/-- The fields that were read are the ones in the bytes. -/
theorem values_ofBytes {bytes : List UInt8} (h : bytes.length = recordHeaderSize) :
    (ofBytes bytes).values = LittleEndian.unpack widths bytes := by
  have hfits : List.Forall₂ _ widths (LittleEndian.unpack widths bytes) :=
    LittleEndian.unpack_fits h
  unfold ofBytes
  generalize LittleEndian.unpack widths bytes = fields at hfits
  rcases hfits with
    _ | ⟨h1, _ | ⟨h2, _ | ⟨h3, _ | ⟨h4, _ | ⟨h5, _ | ⟨h6, _ | ⟨h7, _ | ⟨h8, _ | ⟨h9, _ | ⟨h10,
    _ | ⟨h11, _ | ⟨h12, _ | _⟩⟩⟩⟩⟩⟩⟩⟩⟩⟩⟩⟩
  simp only [values,
    UInt32.toNat_ofNat_of_lt' h1, UInt16.toNat_ofNat_of_lt' h2, UInt16.toNat_ofNat_of_lt' h3,
    UInt32.toNat_ofNat_of_lt' h4, UInt32.toNat_ofNat_of_lt' h5, UInt64.toNat_ofNat_of_lt' h6,
    UInt64.toNat_ofNat_of_lt' h7, UInt64.toNat_ofNat_of_lt' h8, UInt32.toNat_ofNat_of_lt' h9,
    UInt32.toNat_ofNat_of_lt' h10, UInt32.toNat_ofNat_of_lt' h11, UInt32.toNat_ofNat_of_lt' h12]

/-- Bytes read into a header are its memory. -/
theorem toBytes_ofBytes {bytes : List UInt8} (h : bytes.length = recordHeaderSize) :
    (ofBytes bytes).toBytes = bytes := by
  unfold toBytes
  rw [values_ofBytes h]
  exact LittleEndian.pack_unpack h

/-- The memory before the checksum. -/
def checked (h : WalRecordHeader) : List UInt8 :=
  LittleEndian.pack (widths.take 10) (h.values.take 10)

/-- The memory behind the checksum. -/
def tail (h : WalRecordHeader) : List UInt8 := LittleEndian.encode 4 h.tailPadding.toNat

theorem toBytes_eq (h : WalRecordHeader) :
    h.toBytes = h.checked ++ LittleEndian.encode 4 h.headerCrc.toNat ++ h.tail := by
  simp [toBytes, checked, tail, widths, values]

@[simp] theorem checked_length (h : WalRecordHeader) : h.checked.length = 48 :=
  LittleEndian.pack_length rfl

theorem calculateRecordHeaderCrc_eq (h : WalRecordHeader) :
    h.calculateRecordHeaderCrc =
      calculateCrc32 (h.checked ++ LittleEndian.encode 4 0 ++ h.tail) :=
  congrArg calculateCrc32 (toBytes_eq { h with headerCrc := 0 })

end WalRecordHeader

end Wal
