import MatchingEngine.Wal.Sessions

/-!
# What the writer acknowledges

The writer narrows sizes to 32 bits and takes any ids, and the parsers check both. So
everything it acknowledges is readable exactly when the ids are in use and every record
has a length below `2 ^ 32`.
-/

namespace Wal

open WalSegmentWriter

/-- The bytes on disk after a session on a path. -/
def diskBytes (config : WalWriterConfig) (outcomes : List SinkOutcome) (entry : FileEntry)
    (calls : List Append) : List UInt8 :=
  (session config calls outcomes entry).bytes?.getD []

/-- The headers on disk pass their static checks and say how long the payloads and the
records are. The bytes of a record are those that its append has added. -/
structure HeadersMatch (disk : List Append → List UInt8) (calls : List Append) : Prop where
  segment : (segmentHeaderOf (disk calls)).hasValidStaticFields
  records : ∀ earlier call later, calls = earlier ++ call :: later →
    let offset := (disk earlier).length
    let header := WalRecordHeader.ofBytes (((disk calls).drop offset).take recordHeaderSize)
    header.hasValidStaticFields ∧
      header.payloadLength.toNat = call.payload.length ∧
      (disk (earlier ++ [call])).length = offset + header.recordLength.toNat

variable {config : WalWriterConfig}

/-- Rounding up gives a multiple of eight, even when it overflows. -/
theorem alignUp_mod (value : UInt32) : (alignUp value defaultRecordAlignment).toNat % 8 = 0 := by
  have hmod : (value % 8).toNat = value.toNat % 8 := UInt32.toNat_mod value 8
  have hlt := value.toNat_lt
  unfold alignUp defaultRecordAlignment
  rw [if_neg (by decide)]
  by_cases hzero : value % 8 = 0
  · rw [if_pos hzero]
    rw [← hmod, hzero]
    rfl
  · have hsub : (8 - value % 8).toNat = 8 - value.toNat % 8 := by
      rw [UInt32.toNat_sub_of_le, hmod]
      · rfl
      · rw [UInt32.le_iff_toNat_le, hmod]
        change value.toNat % 8 ≤ 8
        omega
    rw [if_neg hzero, UInt32.toNat_add, hsub]
    omega

/-- A record that does not fit takes more bytes than its header can say. -/
theorem recordLength_lt (config : WalWriterConfig) {call : Append} (hlarge : ¬ call.Fits)
    (sequence : UInt64) :
    (config.recordHeader sequence call).recordLength.toNat <
      (config.appendedBytes sequence call).length := by
  have haligned : (config.recordHeader sequence call).recordLength.toNat % 8 = 0 := alignUp_mod _
  have hlt := (config.recordHeader sequence call).recordLength.toNat_lt
  unfold Append.Fits frameLength recordHeaderSize at hlarge
  unfold WalWriterConfig.appendedBytes
  rw [List.length_append, List.length_append, WalRecordHeader.toBytes_length]
  unfold recordHeaderSize
  omega

/-- The bytes of a session on a fresh path, one append after the other. -/
theorem diskBytes_eq {outcomes : List SinkOutcome} {entry : FileEntry}
    (hfresh : entry = .absent ∨ entry = .file [])
    (houtcomes : ∀ outcome ∈ outcomes, outcome.fails = false) (calls : List Append) :
    diskBytes config outcomes entry calls =
      config.segmentHeader.toBytes ++ config.appendedFrom config.firstSequence calls := by
  have hready := (ready_create_fresh config hfresh houtcomes).appendEach calls
  unfold diskBytes session
  rw [hready.commit.2.destroy]
  change config.segmentHeader.toBytes ++ [] ++ _ = _
  rw [List.append_nil]

/-- The bytes of a session around one of its records. -/
theorem diskBytes_split {outcomes : List SinkOutcome} {entry : FileEntry}
    (hfresh : entry = .absent ∨ entry = .file [])
    (houtcomes : ∀ outcome ∈ outcomes, outcome.fails = false) (earlier : List Append)
    (call : Append) (later : List Append) :
    diskBytes config outcomes entry (earlier ++ call :: later) =
      diskBytes config outcomes entry earlier ++
        (config.appendedBytes (config.firstSequence + .ofNat earlier.length) call ++
          config.appendedFrom (config.firstSequence + .ofNat earlier.length + 1) later) := by
  rw [diskBytes_eq hfresh houtcomes, diskBytes_eq hfresh houtcomes,
    WalWriterConfig.appendedFrom_append, List.append_assoc, WalWriterConfig.appendedFrom]

/-- The header found where a record was appended, and the bytes the record takes. -/
theorem diskBytes_record (config : WalWriterConfig) {outcomes : List SinkOutcome}
    {entry : FileEntry} (hfresh : entry = .absent ∨ entry = .file [])
    (houtcomes : ∀ outcome ∈ outcomes, outcome.fails = false) (earlier : List Append)
    (call : Append) (later : List Append) :
    let disk := diskBytes config outcomes entry
    let sequence := config.firstSequence + .ofNat earlier.length
    WalRecordHeader.ofBytes (((disk (earlier ++ call :: later)).drop
        (disk earlier).length).take recordHeaderSize) = config.recordHeader sequence call ∧
      (disk (earlier ++ [call])).length =
        (disk earlier).length + (config.appendedBytes sequence call).length := by
  intro disk sequence
  have hheader : (config.appendedBytes sequence call).take recordHeaderSize =
      (config.recordHeader sequence call).toBytes :=
    List.take_left' (WalRecordHeader.toBytes_length _)
  have hlong : recordHeaderSize ≤ (config.appendedBytes sequence call).length := by
    rw [WalWriterConfig.appendedBytes, List.length_append, WalRecordHeader.toBytes_length]
    exact Nat.le_add_right _ _
  have hsplit : ∀ later, disk (earlier ++ call :: later) = disk earlier ++
      (config.appendedBytes sequence call ++ config.appendedFrom (sequence + 1) later) :=
    diskBytes_split hfresh houtcomes earlier call
  constructor
  · rw [hsplit, List.drop_left' rfl, List.take_append_of_le_length hlong, hheader,
      WalRecordHeader.ofBytes_toBytes]
  · rw [hsplit, List.length_append, WalWriterConfig.appendedFrom, List.append_nil]

/-- On a fresh path where no operation fails, every append and the commit succeed. The
headers on disk are right exactly if the ids are in use and all records fit. -/
theorem acknowledged_iff (config : WalWriterConfig) {entry : FileEntry}
    (hfresh : entry = .absent ∨ entry = .file []) {outcomes : List SinkOutcome}
    (houtcomes : ∀ outcome ∈ outcomes, outcome.fails = false) (calls : List Append) :
    let opened := create config { entry := entry, outcomes := outcomes }
    (∀ earlier call later, calls = earlier ++ call :: later →
        ((opened.appendAll earlier).append call).1.status = .appended) ∧
      (opened.appendAll calls).commit.1.status = .committed ∧
      (HeadersMatch (diskBytes config outcomes entry) calls ↔
        config.Valid ∧ ∀ call ∈ calls, call.Fits) := by
  intro opened
  have hready := ready_create_fresh config hfresh houtcomes
  refine ⟨fun earlier call later _ => ?_, (hready.appendEach calls).commit.1, ?_, ?_⟩
  · rw [((hready.appendEach earlier).append call).1]
  · intro hmatch
    have hsegment := hmatch.segment
    rw [diskBytes_eq hfresh houtcomes, segmentHeaderOf_append] at hsegment
    refine ⟨⟨hsegment.2.2.2.1, hsegment.2.2.2.2.1, hsegment.2.2.2.2.2⟩, fun call hcall => ?_⟩
    obtain ⟨earlier, later, hcalls⟩ := List.append_of_mem hcall
    obtain ⟨-, -, hoccupied⟩ := hmatch.records earlier call later hcalls
    obtain ⟨hheader, hlength⟩ := diskBytes_record config hfresh houtcomes
      earlier call later
    rw [hcalls, hheader, hlength] at hoccupied
    by_contra hlarge
    have hlt := recordLength_lt config hlarge
      (config.firstSequence + .ofNat earlier.length)
    omega
  · rintro ⟨hvalid, hfits⟩
    refine ⟨?_, fun earlier call later hcalls => ?_⟩
    · rw [diskBytes_eq hfresh houtcomes]
      exact (WalWriterConfig.segmentHeader_valid hvalid _).fields
    · have hcall : call.Fits := hfits call (hcalls ▸ List.mem_append_right _ List.mem_cons_self)
      obtain ⟨hheader, hlength⟩ := diskBytes_record config hfresh houtcomes
        earlier call later
      obtain ⟨hfields, -⟩ := WalRecordHeader.refusal_eq_none_iff.mp
        (@WalWriterConfig.recordHeader_accepted config call
          (config.firstSequence + .ofNat earlier.length) hcall)
      dsimp only
      rw [hcalls, hheader, hlength]
      refine ⟨hfields, hcall.payloadLength, ?_⟩
      rw [WalWriterConfig.appendedBytes_eq hcall, WalWriterConfig.frameBytes_length]
      exact congrArg _ hcall.recordLength.symm

/-- A session with ids in use and two small records, some of whose bytes arrive early. -/
theorem acknowledged_iff_two_records :
    HeadersMatch (diskBytes { streamId := 7, epoch := 3 } [.done 0, .done 9, .done 60] .absent)
      [{ recordType := 1, payload := [1, 2, 3] }, { recordType := 2, payload := [] }] :=
  (acknowledged_iff { streamId := 7, epoch := 3 } (.inl rfl) (by decide)
    [{ recordType := 1, payload := [1, 2, 3] }, { recordType := 2, payload := [] }]).2.2.mpr
    ⟨⟨by decide, by decide, by decide⟩, by decide⟩

/-- The default configuration: the append and the commit succeed, and the segment header
on disk is refused by its own check, by the reader and by the next writer. -/
theorem not_headersMatch_default :
    let opened := create {} { entry := .absent }
    let call : Append := { recordType := 1, payload := [] }
    let disk := diskBytes {} [] .absent [call]
    (opened.append call).1.status = .appended ∧
      (opened.appendAll [call]).commit.1.status = .committed ∧
      ¬ HeadersMatch (diskBytes {} [] .absent) [call] ∧
      (WalSegmentReader.readAll (.file disk)).map (fun read => read.final.error) =
        some .invalidSegmentHeader ∧
      (create {} { entry := .file disk }).writerError = .invalidSegmentHeader := by
  intro opened call disk
  refine ⟨by decide +kernel, by decide +kernel, fun hmatch => ?_, by decide +kernel,
    by decide +kernel⟩
  exact absurd hmatch.segment (by decide +kernel)

end Wal
