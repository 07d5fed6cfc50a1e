import MatchingEngine.Wal.Frames
import MatchingEngine.Wal.SegmentWriter
import Mathlib.Data.List.Induction

/-!
# What a segment looks like

The bytes that a configuration and a list of appended records stand for: the segment
header, and for each record its header, its payload and zeros up to the alignment.
These bytes parse into frames with exactly the appended records.
-/

namespace Wal

open Framing

/-- The size of the frame of a payload: header and payload, rounded up. -/
def frameLength (payloadLength : ℕ) : ℕ := (recordHeaderSize + payloadLength + 7) / 8 * 8

/-- The frame of the record has a length below `2 ^ 32`. -/
def Append.Fits (call : Append) : Prop := frameLength call.payload.length < 2 ^ 32

instance (call : Append) : Decidable call.Fits := inferInstanceAs (Decidable (_ < _))

namespace WalWriterConfig

/-- The ids are in use. -/
def Valid (config : WalWriterConfig) : Prop :=
  config.streamId ≠ 0 ∧ config.epoch ≠ 0 ∧ config.firstSequence ≠ 0

/-- A writer with this configuration, before it has a file. -/
def writer (config : WalWriterConfig) : WalSegmentWriter :=
  { file := { entry := .absent }
    streamId := config.streamId
    epoch := config.epoch
    nextSequence := config.firstSequence }

/-- The header of the segment. -/
def segmentHeader (config : WalWriterConfig) : WalSegmentHeader := config.writer.segmentHeader

/-- The header of a record. -/
def recordHeader (config : WalWriterConfig) (sequence : UInt64) (call : Append) :
    WalRecordHeader := config.writer.makeHeader call sequence

/-- The bytes that `append` writes, whether or not the record fits. -/
def appendedBytes (config : WalWriterConfig) (sequence : UInt64) (call : Append) : List UInt8 :=
  (config.recordHeader sequence call).toBytes ++
    (call.payload ++
      List.replicate (Wal.paddingFor (.ofNat recordHeaderSize + .ofNat call.payload.length)
        defaultRecordAlignment).toNat 0)

/-- The bytes that appends with consecutive numbers write. -/
def appendedFrom (config : WalWriterConfig) : UInt64 → List Append → List UInt8
  | _, [] => []
  | sequence, call :: calls =>
    config.appendedBytes sequence call ++ config.appendedFrom (sequence + 1) calls

/-- The bytes of a record. -/
def frameBytes (config : WalWriterConfig) (sequence : UInt64) (call : Append) : List UInt8 :=
  (config.recordHeader sequence call).toBytes ++
    (call.payload ++
      List.replicate (frameLength call.payload.length - (recordHeaderSize + call.payload.length)) 0)

/-- The bytes of records with consecutive numbers. -/
def framesBytes (config : WalWriterConfig) : UInt64 → List Append → List UInt8
  | _, [] => []
  | sequence, call :: calls =>
    config.frameBytes sequence call ++ config.framesBytes (sequence + 1) calls

/-- The bytes of a segment. -/
def segmentBytes (config : WalWriterConfig) (calls : List Append) : List UInt8 :=
  config.segmentHeader.toBytes ++ config.framesBytes config.firstSequence calls

/-- A record as a parser finds it. -/
def view (config : WalWriterConfig) (sequence : UInt64) (call : Append) : WalRecordView :=
  { header := config.recordHeader sequence call, payload := call.payload }

/-- The length of the frames of records. -/
def framesLength (calls : List Append) : ℕ :=
  (calls.map fun call => frameLength call.payload.length).sum

/-- Records with consecutive numbers as a parser finds them. -/
def views (config : WalWriterConfig) : UInt64 → List Append → List WalRecordView
  | _, [] => []
  | sequence, call :: calls => config.view sequence call :: config.views (sequence + 1) calls

/-- Records with consecutive numbers as they are handed out. -/
def records (config : WalWriterConfig) : UInt64 → List Append → List WalRecord
  | _, [] => []
  | sequence, call :: calls =>
    { recordType := call.recordType
      position := ⟨config.streamId, config.epoch, sequence⟩
      payload := call.payload } :: config.records (sequence + 1) calls

end WalWriterConfig

/-- The offset behind the records of a segment. -/
def boundaryAfter (calls : List Append) : ℕ :=
  segmentHeaderSize + WalWriterConfig.framesLength calls

/-- The offset is behind the payload of a record and before the end of its frame. -/
def InsidePadding (calls : List Append) (cut : ℕ) : Prop :=
  ∃ earlier call later, calls = earlier ++ call :: later ∧
    boundaryAfter earlier + recordHeaderSize + call.payload.length ≤ cut ∧
    cut < boundaryAfter (earlier ++ [call])

/-! ## Lengths -/

/-- Rounding up, with the overflow of the last step. -/
theorem alignUp_toNat_mod (value : UInt32) :
    (alignUp value defaultRecordAlignment).toNat = (value.toNat + 7) / 8 * 8 % 2 ^ 32 := by
  have hmod : (value % 8).toNat = value.toNat % 8 := UInt32.toNat_mod value 8
  have hlt := value.toNat_lt
  unfold alignUp defaultRecordAlignment
  rw [if_neg (by decide)]
  by_cases hzero : value % 8 = 0
  · rw [if_pos hzero]
    rw [hzero, UInt32.toNat_zero] at hmod
    omega
  · have hpos : (value % 8).toNat ≠ 0 := fun h => hzero (UInt32.toNat_inj.mp h)
    have hle : value % 8 ≤ 8 := by
      rw [UInt32.le_iff_toNat_le, hmod]
      exact (Nat.mod_lt _ (by decide)).le
    have hsub : (8 - value % 8).toNat = 8 - value.toNat % 8 := by
      rw [UInt32.toNat_sub_of_le _ _ hle, hmod]
      rfl
    rw [if_neg hzero, UInt32.toNat_add, hsub]
    omega

/-- Rounding up without an overflow. -/
theorem alignUp_toNat {value : UInt32} (h : (value.toNat + 7) / 8 * 8 < 2 ^ 32) :
    (alignUp value defaultRecordAlignment).toNat = (value.toNat + 7) / 8 * 8 := by
  rw [alignUp_toNat_mod, Nat.mod_eq_of_lt h]

/-- A small unsigned number keeps its value as a signed one. -/
theorem toInt64_toInt {n : UInt64} (h : n.toNat < 2 ^ 63) : n.toInt64.toInt = n.toNat := by
  rw [← Int64.toInt_toBitVec, UInt64.toBitVec_toInt64, BitVec.toInt_eq_toNat_of_lt]
  · rfl
  · change 2 * n.toNat < 2 ^ 64
    omega

namespace Append

variable {call : Append}

/-- A payload that fits has its true length in the header. -/
theorem Fits.payloadLength (h : call.Fits) :
    (UInt32.ofNat call.payload.length).toNat = call.payload.length := by
  unfold Fits frameLength recordHeaderSize at h
  exact UInt32.toNat_ofNat_of_lt' (by change _ < 2 ^ 32; omega)

/-- Header and payload together have their true length. -/
theorem Fits.rawLength (h : call.Fits) :
    (UInt32.ofNat recordHeaderSize + UInt32.ofNat call.payload.length).toNat =
      recordHeaderSize + call.payload.length := by
  have hpayload := h.payloadLength
  unfold Fits frameLength recordHeaderSize at h
  rw [UInt32.toNat_add, hpayload]
  change (56 + call.payload.length) % 2 ^ 32 = 56 + call.payload.length
  omega

/-- The record length is the length of the frame. -/
theorem Fits.recordLength (h : call.Fits) :
    (alignUp (.ofNat recordHeaderSize + .ofNat call.payload.length)
      defaultRecordAlignment).toNat = frameLength call.payload.length := by
  have hraw := h.rawLength
  unfold Fits frameLength at h
  rw [alignUp_toNat (by rw [hraw]; exact h), hraw, frameLength]

/-- The padding fills up the frame. -/
theorem Fits.paddingFor (h : call.Fits) :
    (Wal.paddingFor (.ofNat recordHeaderSize + .ofNat call.payload.length)
      defaultRecordAlignment).toNat =
      frameLength call.payload.length - (recordHeaderSize + call.payload.length) := by
  have hraw := h.rawLength
  have hlength := h.recordLength
  unfold Wal.paddingFor
  rw [UInt32.toNat_sub_of_le, hlength, hraw]
  rw [UInt32.le_iff_toNat_le, hlength, hraw]
  unfold frameLength
  omega

end Append

/-- A frame has room for header and payload, and for less than eight bytes more. -/
theorem frameLength_bounds (n : ℕ) :
    recordHeaderSize + n ≤ frameLength n ∧ frameLength n < recordHeaderSize + n + 8 := by
  unfold frameLength
  omega

/-- The padding fills the record up when the lengths agree. -/
theorem WalRecordHeader.padding_toNat {h : WalRecordHeader}
    (hcovers : recordHeaderSize + h.payloadLength.toNat ≤ h.recordLength.toNat) :
    h.padding.toNat = h.recordLength.toNat - (recordHeaderSize + h.payloadLength.toNat) := by
  have hsize : (UInt64.ofNat recordHeaderSize).toNat = recordHeaderSize := rfl
  have hfirst : (h.recordLength.toUInt64 - UInt64.ofNat recordHeaderSize).toNat =
      h.recordLength.toNat - recordHeaderSize := by
    rw [UInt64.toNat_sub_of_le, UInt32.toNat_toUInt64, hsize]
    rw [UInt64.le_iff_toNat_le, UInt32.toNat_toUInt64, hsize]
    omega
  unfold padding
  rw [UInt64.toNat_sub_of_le, hfirst, UInt32.toNat_toUInt64, Nat.sub_sub]
  rw [UInt64.le_iff_toNat_le, hfirst, UInt32.toNat_toUInt64]
  omega

namespace WalWriterConfig

variable {config : WalWriterConfig} {call : Append} {sequence : UInt64}

/-- A record that fits is written as its frame. -/
theorem appendedBytes_eq (hfits : call.Fits) :
    config.appendedBytes sequence call = config.frameBytes sequence call := by
  rw [appendedBytes, hfits.paddingFor, frameBytes]

/-- A written record header is accepted where it was written. -/
theorem recordHeader_accepted (hfits : call.Fits) :
    (config.recordHeader sequence call).refusal config.segmentHeader sequence = none := by
  have hlength := hfits.recordLength
  have hbounds := frameLength_bounds call.payload.length
  refine WalRecordHeader.refusal_eq_none_iff.mpr ⟨⟨rfl, rfl, rfl, ?_, ?_, rfl⟩, rfl, rfl, rfl, rfl⟩
  · change recordHeaderSize ≤ _
    exact le_trans (le_trans (Nat.le_add_right _ _) hbounds.1) hlength.ge
  · apply UInt32.toNat_inj.mp
    change (alignUp _ defaultRecordAlignment).toNat % 8 = 0
    rw [hlength]
    exact Nat.mul_mod_left _ _

/-- The frame that a written header announces. -/
theorem recordHeader_frameSize (hfits : call.Fits) :
    (config.recordHeader sequence call).frameSize = frameLength call.payload.length := by
  have hlength := hfits.recordLength
  have hpayload := hfits.payloadLength
  have hbounds := frameLength_bounds call.payload.length
  have hpadding : (config.recordHeader sequence call).padding.toNat =
      frameLength call.payload.length - (recordHeaderSize + call.payload.length) := by
    have hdata : (config.recordHeader sequence call).payloadLength.toNat =
        call.payload.length := hpayload
    have htotal : (config.recordHeader sequence call).recordLength.toNat =
        frameLength call.payload.length := hlength
    rw [WalRecordHeader.padding_toNat (by rw [hdata, htotal]; exact hbounds.1), hdata, htotal]
  unfold WalRecordHeader.frameSize
  rw [toInt64_toInt (by rw [hpadding]; omega), hpadding, Int.toNat_natCast]
  change recordHeaderSize + (UInt32.ofNat call.payload.length).toNat + _ = _
  omega

/-- What is found where a record header was written depends on the bytes in the place of
its payload alone. -/
theorem frontAt_header (hfits : call.Fits) {payload : List UInt8}
    (hsize : payload.length = call.payload.length) (rest : List UInt8) :
    frontAt config.segmentHeader sequence
        ((config.recordHeader sequence call).toBytes ++ (payload ++ rest)) =
      if calculateCrc32 payload ≠ (config.recordHeader sequence call).payloadCrc
      then .stop .payloadChecksumMismatch
      else .item { header := config.recordHeader sequence call, payload := payload }
        (sequence + 1) (frameLength call.payload.length) := by
  have hpayload : payload.length = (config.recordHeader sequence call).payloadLength.toNat :=
    hsize.trans hfits.payloadLength.symm
  rw [frontAt_of_accepted (recordHeader_accepted hfits) hpayload, recordHeader_frameSize hfits]

/-- The bytes of a record are found as that record, whatever follows its payload. -/
theorem frontAt_frame (hfits : call.Fits) (rest : List UInt8) :
    frontAt config.segmentHeader sequence
        ((config.recordHeader sequence call).toBytes ++ (call.payload ++ rest)) =
      .item (config.view sequence call) (sequence + 1) (frameLength call.payload.length) := by
  have hcrc : calculateCrc32 call.payload = (config.recordHeader sequence call).payloadCrc := rfl
  rw [frontAt_header hfits rfl, if_neg (not_not.mpr hcrc)]
  rfl

/-- The header of a segment is valid when the ids are in use. -/
theorem segmentHeader_valid (hvalid : config.Valid) (rest : List UInt8) :
    SegmentHeaderValid (config.segmentHeader.toBytes ++ rest) :=
  .of_append ⟨rfl, rfl, rfl, hvalid.1, hvalid.2.1, hvalid.2.2⟩ rfl rest

@[simp] theorem frameBytes_length (config : WalWriterConfig) (sequence : UInt64)
    (call : Append) :
    (config.frameBytes sequence call).length = frameLength call.payload.length := by
  have hbounds := frameLength_bounds call.payload.length
  rw [frameBytes, List.length_append, List.length_append, List.length_replicate,
    WalRecordHeader.toBytes_length]
  omega

@[simp] theorem framesBytes_length (config : WalWriterConfig) (sequence : UInt64)
    (calls : List Append) : (config.framesBytes sequence calls).length = framesLength calls := by
  induction calls generalizing sequence with
  | nil => rfl
  | cons call calls ih =>
    rw [framesBytes, List.length_append, frameBytes_length, ih, framesLength, framesLength,
      List.map_cons, List.sum_cons]

@[simp] theorem segmentBytes_length (config : WalWriterConfig) (calls : List Append) :
    (config.segmentBytes calls).length = segmentHeaderSize + framesLength calls := by
  rw [segmentBytes, List.length_append, WalSegmentHeader.toBytes_length, framesBytes_length]

/-- Numbers are counted on over a record. -/
theorem add_one_add_ofNat (sequence : UInt64) (n : ℕ) :
    sequence + 1 + .ofNat n = sequence + .ofNat (n + 1) := by
  rw [UInt64.add_assoc, UInt64.add_comm 1, ← UInt64.ofNat_one, ← UInt64.ofNat_add]

theorem appendedFrom_append (config : WalWriterConfig) (sequence : UInt64)
    (earlier later : List Append) :
    config.appendedFrom sequence (earlier ++ later) = config.appendedFrom sequence earlier ++
      config.appendedFrom (sequence + .ofNat earlier.length) later := by
  induction earlier generalizing sequence with
  | nil => simp [appendedFrom]
  | cons call earlier ih =>
    rw [List.cons_append, appendedFrom, appendedFrom, ih, List.append_assoc, add_one_add_ofNat,
      List.length_cons]

/-- Records that fit are written as their frames. -/
theorem appendedFrom_eq {calls : List Append} (hfits : ∀ call ∈ calls, call.Fits) :
    config.appendedFrom sequence calls = config.framesBytes sequence calls := by
  induction calls generalizing sequence with
  | nil => rfl
  | cons call calls ih =>
    rw [appendedFrom, framesBytes, appendedBytes_eq (hfits call List.mem_cons_self),
      ih fun c hc => hfits c (List.mem_cons_of_mem _ hc)]

theorem framesBytes_append (config : WalWriterConfig) (sequence : UInt64)
    (earlier later : List Append) :
    config.framesBytes sequence (earlier ++ later) = config.framesBytes sequence earlier ++
      config.framesBytes (sequence + .ofNat earlier.length) later := by
  induction earlier generalizing sequence with
  | nil => simp [framesBytes]
  | cons call earlier ih =>
    rw [List.cons_append, framesBytes, framesBytes, ih, List.append_assoc, add_one_add_ofNat,
      List.length_cons]

theorem views_append (config : WalWriterConfig) (sequence : UInt64)
    (earlier later : List Append) :
    config.views sequence (earlier ++ later) = config.views sequence earlier ++
      config.views (sequence + .ofNat earlier.length) later := by
  induction earlier generalizing sequence with
  | nil => simp [views]
  | cons call earlier ih =>
    rw [List.cons_append, views, views, ih, List.cons_append, add_one_add_ofNat,
      List.length_cons]

/-- Appending records adds their frames. -/
theorem segmentBytes_append (config : WalWriterConfig) (earlier later : List Append) :
    config.segmentBytes (earlier ++ later) = config.segmentBytes earlier ++
      config.framesBytes (config.firstSequence + .ofNat earlier.length) later := by
  rw [segmentBytes, framesBytes_append, segmentBytes, List.append_assoc]

/-- Appending one record adds its frame. -/
theorem segmentBytes_concat (config : WalWriterConfig) (calls : List Append) (call : Append) :
    config.segmentBytes (calls ++ [call]) = config.segmentBytes calls ++
      config.frameBytes (config.firstSequence + .ofNat calls.length) call := by
  rw [segmentBytes_append, framesBytes, framesBytes, List.append_nil]

/-- The bytes of a segment around one of its records. -/
theorem segmentBytes_split (config : WalWriterConfig) (earlier : List Append) (call : Append)
    (later : List Append) :
    config.segmentBytes (earlier ++ call :: later) = config.segmentBytes earlier ++
      (config.frameBytes (config.firstSequence + .ofNat earlier.length) call ++
        config.framesBytes (config.firstSequence + .ofNat earlier.length + 1) later) := by
  rw [segmentBytes_append, framesBytes]

@[simp] theorem views_length (config : WalWriterConfig) (sequence : UInt64)
    (calls : List Append) : (config.views sequence calls).length = calls.length := by
  induction calls generalizing sequence with
  | nil => rfl
  | cons call calls ih => rw [views, List.length_cons, ih, List.length_cons]

/-- The position of the last record. -/
theorem lastOf_views_concat (config : WalWriterConfig) (sequence : UInt64) (calls : List Append)
    (call : Append) (position : WalPosition) :
    lastOf position (config.views sequence (calls ++ [call])) =
      ⟨config.streamId, config.epoch, sequence + .ofNat calls.length⟩ := by
  rw [views_append, lastOf, views, views, List.getLast?_concat]
  rfl

/-- The frames of records parse into these records, and the rest is parsed behind
them. -/
theorem frames_append {calls : List Append} (hfits : ∀ call ∈ calls, call.Fits)
    {rest : List UInt8} {views : List WalRecordView} {size : ℕ} {ending : Option WalError}
    (hrest : Frames config.segmentHeader (sequence + .ofNat calls.length) rest views size
      ending) :
    Frames config.segmentHeader sequence (config.framesBytes sequence calls ++ rest)
      (config.views sequence calls ++ views) (framesLength calls + size) ending := by
  induction calls generalizing sequence with
  | nil => simpa [framesBytes, WalWriterConfig.views, framesLength] using hrest
  | cons call calls ih =>
    have hcall := hfits call List.mem_cons_self
    rw [List.length_cons, ← add_one_add_ofNat] at hrest
    have htail := ih (fun c hc => hfits c (List.mem_cons_of_mem _ hc)) hrest
    have hfront : frontAt config.segmentHeader sequence (config.frameBytes sequence call ++
        (config.framesBytes (sequence + 1) calls ++ rest)) =
        .item (config.view sequence call) (sequence + 1)
          (config.frameBytes sequence call).length := by
      rw [frameBytes_length, frameBytes, List.append_assoc, List.append_assoc]
      exact frontAt_frame hcall _
    have hframes := Parses.prepend hfront htail
    rw [frameBytes_length] at hframes
    rw [framesBytes, List.append_assoc, framesLength, List.map_cons, List.sum_cons,
      Nat.add_assoc]
    exact hframes

/-- The frames of a segment. -/
theorem frames_segment {calls : List Append} (hfits : ∀ call ∈ calls, call.Fits) :
    Frames config.segmentHeader sequence (config.framesBytes sequence calls)
      (config.views sequence calls) (framesLength calls) none := by
  have hend : Frames config.segmentHeader (sequence + .ofNat calls.length) [] [] 0 none :=
    .done rfl
  have hframes := frames_append hfits hend
  rwa [List.append_nil, List.append_nil, Nat.add_zero] at hframes

/-- What is handed out for the frames of records. -/
@[simp] theorem map_record_views (config : WalWriterConfig) (sequence : UInt64)
    (calls : List Append) :
    (config.views sequence calls).map WalRecordView.record = config.records sequence calls := by
  induction calls generalizing sequence with
  | nil => rfl
  | cons call calls ih =>
    rw [views, List.map_cons, ih, records]
    rfl

theorem records_append (config : WalWriterConfig) (sequence : UInt64)
    (earlier later : List Append) :
    config.records sequence (earlier ++ later) = config.records sequence earlier ++
      config.records (sequence + .ofNat earlier.length) later := by
  rw [← map_record_views, views_append, List.map_append, map_record_views,
    map_record_views]

@[simp] theorem records_length (config : WalWriterConfig) (sequence : UInt64)
    (calls : List Append) : (config.records sequence calls).length = calls.length := by
  rw [← map_record_views, List.length_map, views_length]

end WalWriterConfig

/-! ## Boundaries -/

theorem framesLength_append (earlier later : List Append) :
    WalWriterConfig.framesLength (earlier ++ later) =
      WalWriterConfig.framesLength earlier + WalWriterConfig.framesLength later := by
  rw [WalWriterConfig.framesLength, List.map_append, List.sum_append]
  rfl

theorem boundaryAfter_concat (earlier : List Append) (call : Append) :
    boundaryAfter (earlier ++ [call]) =
      boundaryAfter earlier + frameLength call.payload.length := by
  rw [boundaryAfter, framesLength_append, boundaryAfter, Nat.add_assoc]
  rfl

/-- Records further back end later. -/
theorem boundaryAfter_mono {earlier later : List Append} (h : earlier <+: later) :
    boundaryAfter earlier ≤ boundaryAfter later := by
  obtain ⟨rest, rfl⟩ := h
  rw [boundaryAfter, boundaryAfter, framesLength_append]
  omega

/-- An offset behind the segment header and before the end of the records is inside the
frame of one of them. -/
theorem exists_frame {calls : List Append} {offset : ℕ} (hheader : segmentHeaderSize ≤ offset)
    (hoffset : offset < boundaryAfter calls) :
    ∃ earlier call later, calls = earlier ++ call :: later ∧ boundaryAfter earlier ≤ offset ∧
      offset < boundaryAfter (earlier ++ [call]) := by
  induction calls using List.reverseRecOn with
  | nil => exact absurd hoffset (Nat.not_lt.mpr hheader)
  | append_singleton calls call ih =>
    rcases Nat.lt_or_ge offset (boundaryAfter calls) with hbefore | hlast
    · obtain ⟨earlier, found, later, rfl, hstart, hend⟩ := ih hbefore
      exact ⟨earlier, found, later ++ [call], by simp, hstart, hend⟩
    · exact ⟨calls, call, [], rfl, hlast, hoffset⟩

/-- An offset is inside the frame of one record only. -/
theorem frame_unique {earlier earlier' later later' : List Append} {call call' : Append}
    {offset : ℕ} (hcalls : earlier ++ call :: later = earlier' ++ call' :: later')
    (hstart : boundaryAfter earlier ≤ offset) (hend : offset < boundaryAfter (earlier ++ [call]))
    (hstart' : boundaryAfter earlier' ≤ offset)
    (hend' : offset < boundaryAfter (earlier' ++ [call'])) : earlier = earlier' ∧ call = call' := by
  rcases List.append_eq_append_iff.mp hcalls with ⟨between, rfl, hrest⟩ | ⟨between, rfl, hrest⟩
  · cases between with
    | nil => exact ⟨(List.append_nil _).symm, (List.cons.inj hrest).1⟩
    | cons first between =>
      obtain ⟨rfl, -⟩ := List.cons.inj hrest
      have hmono := boundaryAfter_mono (⟨between, by simp⟩ :
        earlier ++ [call] <+: earlier ++ call :: between)
      omega
  · cases between with
    | nil => exact ⟨List.append_nil _, (List.cons.inj hrest).1.symm⟩
    | cons first between =>
      obtain ⟨rfl, -⟩ := List.cons.inj hrest
      have hmono := boundaryAfter_mono (⟨between, by simp⟩ :
        earlier' ++ [call'] <+: earlier' ++ call' :: between)
      omega

/-- Inside a frame the padding is what is behind the payload. -/
theorem insidePadding_iff {earlier : List Append} {call : Append} (later : List Append)
    {offset : ℕ} (hstart : boundaryAfter earlier ≤ offset)
    (hend : offset < boundaryAfter (earlier ++ [call])) :
    InsidePadding (earlier ++ call :: later) offset ↔
      boundaryAfter earlier + recordHeaderSize + call.payload.length ≤ offset := by
  constructor
  · rintro ⟨earlier', call', later', hcalls, hpayload, hend'⟩
    obtain ⟨rfl, rfl⟩ := frame_unique hcalls hstart hend (by omega) hend'
    exact hpayload
  · exact fun hpayload => ⟨earlier, call, later, rfl, hpayload, hend⟩

end Wal
