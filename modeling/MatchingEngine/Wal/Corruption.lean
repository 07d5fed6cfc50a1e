import MatchingEngine.Wal.Sessions

/-!
# One corrupted byte

A byte of a segment is changed. In a header it is found by the checksum of the header,
in a payload by the checksum of the payload, so the frames stop there; padding is
skipped without being looked at.
-/

namespace Wal

open Framing

/-! ## Headers -/

/-- A segment header in which a byte was changed fails its checksum. -/
theorem WalSegmentHeader.checksum_of_differsAt {h : WalSegmentHeader}
    (hchecksum : h.headerCrc = h.calculateSegmentHeaderCrc) {i : ℕ} {bytes : List UInt8}
    (hchange : DiffersAt i h.toBytes bytes) :
    (ofBytes bytes).headerCrc ≠ (ofBytes bytes).calculateSegmentHeaderCrc := by
  have hlength : bytes.length = segmentHeaderSize := by
    rw [← hchange.length_eq, h.toBytes_length]
  rw [← toBytes_ofBytes hlength, toBytes_eq, toBytes_eq] at hchange
  rw [calculateSegmentHeaderCrc_eq] at hchecksum ⊢
  exact checksum_detects (by rw [checked_length, checked_length]) hchange hchecksum

/-- A record header in which a byte was changed fails its checksum. -/
theorem WalRecordHeader.checksum_of_differsAt {h : WalRecordHeader}
    (hchecksum : h.headerCrc = h.calculateRecordHeaderCrc) {i : ℕ} {bytes : List UInt8}
    (hchange : DiffersAt i h.toBytes bytes) :
    (ofBytes bytes).headerCrc ≠ (ofBytes bytes).calculateRecordHeaderCrc := by
  have hlength : bytes.length = recordHeaderSize := by
    rw [← hchange.length_eq, h.toBytes_length]
  rw [← toBytes_ofBytes hlength, toBytes_eq, toBytes_eq] at hchange
  rw [calculateRecordHeaderCrc_eq] at hchecksum ⊢
  exact checksum_detects (by rw [checked_length, checked_length]) hchange hchecksum

/-- A file with a changed byte in its segment header has no valid header. -/
theorem not_segmentHeaderValid_of_differsAt {h : WalSegmentHeader}
    (hchecksum : h.headerCrc = h.calculateSegmentHeaderCrc) {i : ℕ} {bytes : List UInt8}
    (hchange : DiffersAt i h.toBytes bytes) (rest : List UInt8) :
    ¬ SegmentHeaderValid (bytes ++ rest) := by
  intro hvalid
  have hlength : bytes.length = segmentHeaderSize := by
    rw [← hchange.length_eq, h.toBytes_length]
  have hfound := hvalid.checksum
  rw [segmentHeaderOf, List.take_left' hlength] at hfound
  exact WalSegmentHeader.checksum_of_differsAt hchecksum hchange hfound

/-! ## Frames -/

variable {config : WalWriterConfig} {call : Append} {sequence : UInt64} {offset i : ℕ}
  {bytes changed : List UInt8}

/-- A frame in which a byte before its padding was changed stops the frames. -/
theorem frontAt_of_differsAt (hfits : call.Fits)
    (hchange : DiffersAt i (config.frameBytes sequence call) bytes)
    (hi : i < recordHeaderSize + call.payload.length) (rest : List UInt8) :
    ∃ error, frontAt config.segmentHeader sequence (bytes ++ rest) = .stop error := by
  have hheader := (config.recordHeader sequence call).toBytes_length
  rcases hchange.append_cases with ⟨header, hin, rfl⟩ | ⟨_, _, hin, rfl⟩
  · -- The byte is in the header.
    have hlength : header.length = recordHeaderSize := by rw [← hin.length_eq, hheader]
    have hrefused : (WalRecordHeader.ofBytes header).refusal config.segmentHeader sequence ≠
        none := by
      intro haccepted
      have hchecksum := (WalRecordHeader.refusal_eq_none_iff.mp haccepted).2.1
      exact WalRecordHeader.checksum_of_differsAt rfl hin hchecksum
    obtain ⟨error, hrefusal⟩ := Option.ne_none_iff_exists'.mp hrefused
    rw [List.append_assoc]
    exact ⟨error, frontAt_of_refusal hlength hrefusal _⟩
  rcases hin.append_cases with ⟨payload, hpayload, rfl⟩ | ⟨hbehind, _, _, rfl⟩
  · -- The byte is in the payload.
    have hchecksum : calculateCrc32 payload ≠ (config.recordHeader sequence call).payloadCrc :=
      (calculateCrc32_ne_of_differsAt hpayload).symm
    refine ⟨.payloadChecksumMismatch, ?_⟩
    rw [List.append_assoc, List.append_assoc,
      WalWriterConfig.frontAt_header hfits hpayload.length_eq.symm, if_pos hchecksum]
  · omega

/-- A frame in which a byte of its padding was changed is found as its record. -/
theorem frontAt_of_differsAt_padding (hfits : call.Fits)
    (hchange : DiffersAt i (config.frameBytes sequence call) bytes)
    (hi : recordHeaderSize + call.payload.length ≤ i) (rest : List UInt8) :
    frontAt config.segmentHeader sequence (bytes ++ rest) =
      .item (config.view sequence call) (sequence + 1) bytes.length := by
  have hheader := (config.recordHeader sequence call).toBytes_length
  rw [← hchange.length_eq, WalWriterConfig.frameBytes_length]
  rcases hchange.append_cases with ⟨_, hin, -⟩ | ⟨_, _, hin, rfl⟩
  · have hlt := hin.lt_length
    omega
  rcases hin.append_cases with ⟨_, hpayload, -⟩ | ⟨_, padding, -, rfl⟩
  · have hlt := hpayload.lt_length
    omega
  · rw [List.append_assoc, List.append_assoc]
    exact WalWriterConfig.frontAt_frame hfits _

/-! ## Segments -/

variable {earlier later : List Append}

/-- When the frames stop behind some records, these are read and then reading fails. -/
theorem readAll_of_stop (hvalid : config.Valid) (hfits : ∀ call ∈ earlier, call.Fits)
    (hwrap : config.firstSequence.toNat + earlier.length ≤ 2 ^ 64) {rest : List UInt8}
    {error : WalError}
    (hstop : frontAt config.segmentHeader (config.firstSequence + .ofNat earlier.length) rest =
      .stop error) :
    ∃ read, WalSegmentReader.readAll (.file (config.segmentBytes earlier ++ rest)) = some read ∧
      read.records = config.records config.firstSequence earlier ∧
      read.final.status = .failed := by
  obtain ⟨last, hread⟩ := readAll_append hvalid hfits (.stop hstop)
    (WalSegmentReader.countsOn_of_le hvalid.2.2 hwrap)
  exact ⟨_, hread, List.append_nil _, rfl⟩

/-- A change behind the header of a segment is a change of one of its frames. -/
theorem differsAt_segmentBytes
    (hchange : DiffersAt offset (config.segmentBytes (earlier ++ call :: later)) changed)
    (hstart : boundaryAfter earlier ≤ offset) (hend : offset < boundaryAfter (earlier ++ [call])) :
    ∃ frame, DiffersAt (offset - boundaryAfter earlier)
        (config.frameBytes (config.firstSequence + .ofNat earlier.length) call) frame ∧
      changed = config.segmentBytes earlier ++
        (frame ++ config.framesBytes (config.firstSequence + .ofNat earlier.length + 1) later) := by
  have hlength : (config.segmentBytes earlier).length = boundaryAfter earlier :=
    WalWriterConfig.segmentBytes_length _ _
  rw [WalWriterConfig.segmentBytes_split] at hchange
  rw [boundaryAfter_concat] at hend
  rcases hchange.append_cases with ⟨_, hin, -⟩ | ⟨_, _, hin, rfl⟩
  · have hlt := hin.lt_length
    omega
  rw [hlength] at hin
  rcases hin.append_cases with ⟨frame, hframe, rfl⟩ | ⟨hbehind, -⟩
  · exact ⟨frame, hframe, rfl⟩
  · rw [WalWriterConfig.frameBytes_length] at hbehind
    omega

/-- A change before the padding of a record: the records before it are read and then
reading fails. -/
theorem readAll_of_changed_frame (hvalid : config.Valid)
    (hfits : ∀ c ∈ earlier ++ call :: later, c.Fits)
    (hwrap : config.firstSequence.toNat + (earlier ++ call :: later).length ≤ 2 ^ 64)
    (hchange : DiffersAt offset (config.segmentBytes (earlier ++ call :: later)) changed)
    (hstart : boundaryAfter earlier ≤ offset)
    (hend : offset < boundaryAfter earlier + recordHeaderSize + call.payload.length) :
    ∃ read, WalSegmentReader.readAll (.file changed) = some read ∧
      read.records = config.records config.firstSequence earlier ∧
      read.final.status = .failed := by
  have hbounds := frameLength_bounds call.payload.length
  obtain ⟨frame, hframe, rfl⟩ := differsAt_segmentBytes hchange hstart
    (by rw [boundaryAfter_concat]; omega)
  obtain ⟨error, hstop⟩ := frontAt_of_differsAt (hfits call (by simp)) hframe (by omega)
    (config.framesBytes (config.firstSequence + .ofNat earlier.length + 1) later)
  rw [List.length_append] at hwrap
  exact readAll_of_stop hvalid (fun c hc => hfits c (List.mem_append_left _ hc)) (by omega) hstop

/-- A change in the padding of a record: all records are read. -/
theorem readAll_of_changed_padding (hvalid : config.Valid)
    (hfits : ∀ c ∈ earlier ++ call :: later, c.Fits)
    (hwrap : config.firstSequence.toNat + (earlier ++ call :: later).length ≤ 2 ^ 64)
    (hchange : DiffersAt offset (config.segmentBytes (earlier ++ call :: later)) changed)
    (hstart : boundaryAfter earlier + recordHeaderSize + call.payload.length ≤ offset)
    (hend : offset < boundaryAfter (earlier ++ [call])) :
    ∃ read, WalSegmentReader.readAll (.file changed) = some read ∧
      read.records = config.records config.firstSequence (earlier ++ call :: later) ∧
      read.final.status = .endOfLog := by
  obtain ⟨frame, hframe, rfl⟩ := differsAt_segmentBytes hchange (by omega) hend
  have hfront := frontAt_of_differsAt_padding (hfits call (by simp)) hframe (by omega)
    (config.framesBytes (config.firstSequence + .ofNat earlier.length + 1) later)
  have hframes := Parses.prepend hfront
    (WalWriterConfig.frames_segment fun c hc => hfits c (by simp [hc]))
  have hlength : config.firstSequence.toNat + (earlier.length +
      (config.view (config.firstSequence + .ofNat earlier.length) call ::
        config.views (config.firstSequence + .ofNat earlier.length + 1) later).length) ≤
          2 ^ 64 := by
    rw [List.length_cons, WalWriterConfig.views_length]
    rwa [List.length_append, List.length_cons] at hwrap
  obtain ⟨last, hread⟩ := readAll_append hvalid
    (fun c hc => hfits c (List.mem_append_left _ hc)) hframes
    (WalSegmentReader.countsOn_of_le hvalid.2.2 hlength)
  refine ⟨_, hread, ?_, rfl⟩
  rw [WalWriterConfig.records_append, ← WalWriterConfig.map_record_views _ _ (call :: later)]
  rfl

variable {sessions : List Session} {file : List UInt8}

/-- One changed byte of a segment that is no padding is caught: what is read is a part
of the records from their beginning on, not all of them unless there are none, and then
reading fails. A changed padding byte is not noticed. -/
theorem corruption_is_caught (hwritable : Writable config sessions)
    (hfile : runSessions config sessions .absent = .file file) (hoffset : offset < file.length)
    {byte : UInt8} (hbyte : byte ≠ file[offset]) :
    ∃ read, WalSegmentReader.readAll (.file (file.set offset byte)) = some read ∧
      let calls := sessions.flatMap Session.calls
      let records := config.records config.firstSequence calls
      (¬ InsidePadding calls offset →
        read.records <+: records ∧ (records ≠ [] → read.records ≠ records) ∧
          read.final.status = .failed) ∧
      (InsidePadding calls offset →
        read.records = records ∧ read.final.status = .endOfLog) := by
  have hne : sessions ≠ [] := by
    rintro rfl
    cases hfile
  have hsegment := hwritable.runSessions hne
  rw [hfile] at hsegment
  cases hsegment
  have hfits := hwritable.fits_calls
  have hwrap := hwritable.numbers
  have hchange := DiffersAt.set hoffset hbyte
  generalize (config.segmentBytes (sessions.flatMap Session.calls)).set offset byte = changed
    at hchange ⊢
  generalize sessions.flatMap Session.calls = calls at hchange hfits hwrap
  rcases Nat.lt_or_ge offset segmentHeaderSize with hheader | hheader
  · -- The segment header is invalid and nothing is read.
    have hnot : ¬ InsidePadding calls offset := by
      rintro ⟨earlier, call, -, -, hpayload, -⟩
      unfold boundaryAfter at hpayload
      omega
    rcases hchange.append_cases with ⟨header, hin, rfl⟩ | ⟨hbehind, -⟩
    · obtain ⟨error, hread⟩ := WalSegmentReader.readAll_of_invalid
        (not_segmentHeaderValid_of_differsAt rfl hin
          (config.framesBytes config.firstSequence calls))
      exact ⟨_, hread, fun _ => ⟨List.nil_prefix, fun hsome => hsome.symm, rfl⟩,
        fun hpadding => absurd hpadding hnot⟩
    · rw [WalSegmentHeader.toBytes_length] at hbehind
      omega
  · have hlt := hchange.lt_length
    rw [WalWriterConfig.segmentBytes_length] at hlt
    obtain ⟨earlier, call, later, rfl, hstart, hend⟩ := exists_frame hheader hlt
    have hpadding := insidePadding_iff later hstart hend
    rcases Nat.lt_or_ge offset (boundaryAfter earlier + recordHeaderSize + call.payload.length)
      with hbefore | hbehind
    · obtain ⟨read, hread, hrecords, hfailed⟩ :=
        readAll_of_changed_frame hwritable.valid hfits hwrap hchange hstart hbefore
      refine ⟨read, hread, fun _ => ⟨?_, fun _ => ?_, hfailed⟩, fun h => ?_⟩
      · rw [hrecords, WalWriterConfig.records_append]
        exact List.prefix_append _ _
      · intro heq
        have hlength := congrArg List.length (hrecords.symm.trans heq)
        rw [WalWriterConfig.records_length, WalWriterConfig.records_length, List.length_append,
          List.length_cons] at hlength
        omega
      · exact absurd (hpadding.mp h) (Nat.not_le.mpr hbefore)
    · obtain ⟨read, hread, hrecords, hended⟩ :=
        readAll_of_changed_padding hwritable.valid hfits hwrap hchange hbehind hend
      exact ⟨read, hread, fun h => absurd (hpadding.mpr hbehind) h,
        fun _ => ⟨hrecords, hended⟩⟩

/-- A changed byte in the payload of the second of two records: the first one is read. -/
theorem corruption_is_caught_payload :
    ∃ file, runSessions { streamId := 7, epoch := 3 }
        [{ calls := [{ recordType := 200, payload := [1, 2, 3] },
          { recordType := 300, payload := [4] }] }] .absent = .file file ∧
      ∃ read, WalSegmentReader.readAll (.file (file.set 160 5)) = some read ∧
        read.records <+: [⟨200, ⟨7, 3, 1⟩, [1, 2, 3]⟩, ⟨300, ⟨7, 3, 2⟩, [4]⟩] ∧
        read.records ≠ [⟨200, ⟨7, 3, 1⟩, [1, 2, 3]⟩, ⟨300, ⟨7, 3, 2⟩, [4]⟩] ∧
        read.final.status = .failed := by
  have hwritable : Writable { streamId := 7, epoch := 3 }
      [{ calls := [{ recordType := 200, payload := [1, 2, 3] },
        { recordType := 300, payload := [4] }] }] :=
    ⟨⟨by decide, by decide, by decide⟩, by decide, by decide, by decide⟩
  have hfile := hwritable.runSessions (by decide)
  have hpadding : ¬ InsidePadding [{ recordType := 200, payload := [1, 2, 3] },
      { recordType := 300, payload := [4] }] 160 := fun h =>
    absurd ((@insidePadding_iff [_] _ [] 160 (by decide) (by decide)).mp h) (by decide)
  obtain ⟨read, hread, hcaught, -⟩ := @corruption_is_caught _ 160 _ _ hwritable hfile
    (by decide +kernel) 5 (by decide +kernel)
  obtain ⟨hrecords, hproper, hfailed⟩ := hcaught hpadding
  exact ⟨_, hfile, read, hread, hrecords, hproper (by decide), hfailed⟩

/-! ## Where corruption is not caught -/

/-- A session that appends one record to a new path, whether or not the record fits. -/
theorem session_single (config : WalWriterConfig) (call : Append) :
    WalSegmentWriter.session config [call] [] .absent =
      .file (config.segmentBytes [] ++ config.appendedBytes config.firstSequence call) := by
  have hready := WalSegmentWriter.ready_create_fresh config (.inl rfl)
    (List.forall_mem_nil fun outcome : SinkOutcome => outcome.fails = false)
  exact (hready.append call).2.commit.2.destroy

/-- Some payload of any length has another checksum than its first three bytes. -/
theorem exists_payload (n : ℕ) : ∃ payload : List UInt8, payload.length = n + 4 ∧
    calculateCrc32 (payload.take 3) ≠ calculateCrc32 payload := by
  have hchange := ((DiffersAt.head [] (by decide : (0 : UInt8) ≠ 1)).append_left
    (List.replicate n 0)).append_left [0, 0, 0]
  have htake : ∀ rest : List UInt8, ([0, 0, 0] ++ rest).take 3 = [0, 0, 0] :=
    fun _ => List.take_left' rfl
  have hlength : ∀ last : UInt8, ([0, 0, 0] ++ (List.replicate n 0 ++ [last])).length = n + 4 := by
    simp
  by_cases hsame : calculateCrc32 [0, 0, 0] =
      calculateCrc32 ([0, 0, 0] ++ (List.replicate n 0 ++ [0]))
  · refine ⟨_, hlength 1, ?_⟩
    rw [htake, hsame]
    exact calculateCrc32_ne_of_differsAt hchange
  · refine ⟨_, hlength 0, ?_⟩
    rw [htake]
    exact hsame

/-- A record whose length does not fit its field is not found. -/
theorem frontAt_oversized (config : WalWriterConfig) (sequence : UInt64)
    (hlength : UInt32.ofNat call.payload.length = 3)
    (hchecksum : calculateCrc32 (call.payload.take 3) ≠ calculateCrc32 call.payload)
    (hlong : 3 ≤ call.payload.length) (rest : List UInt8) :
    frontAt config.segmentHeader sequence
        ((config.recordHeader sequence call).toBytes ++ (call.payload ++ rest)) =
      .stop .payloadChecksumMismatch := by
  have hpayload : (config.recordHeader sequence call).payloadLength = 3 := hlength
  have haccepted : (config.recordHeader sequence call).refusal config.segmentHeader sequence =
      none := by
    refine WalRecordHeader.refusal_eq_none_iff.mpr
      ⟨⟨rfl, rfl, rfl, ?_, ?_, rfl⟩, rfl, rfl, rfl, rfl⟩
    · change recordHeaderSize ≤ (alignUp (.ofNat recordHeaderSize + .ofNat call.payload.length)
        defaultRecordAlignment).toNat
      rw [hlength]
      decide
    · change alignUp (.ofNat recordHeaderSize + .ofNat call.payload.length)
        defaultRecordAlignment % defaultRecordAlignment = 0
      rw [hlength]
      decide
  have hsplit : call.payload ++ rest =
      call.payload.take 3 ++ (call.payload.drop 3 ++ rest) := by
    rw [← List.append_assoc, List.take_append_drop]
  have hthree : (call.payload.take 3).length =
      (config.recordHeader sequence call).payloadLength.toNat := by
    rw [hpayload, List.length_take, min_eq_left hlong]
    rfl
  have hcrc : (config.recordHeader sequence call).payloadCrc = calculateCrc32 call.payload := rfl
  rw [hsplit, frontAt_of_accepted haccepted hthree, hcrc, if_pos hchecksum]

/-- A segment without records has no proper part that could be returned, and a record
that does not fit its length field is not returned when only its padding is changed. -/
theorem corruption_not_caught :
    let config : WalWriterConfig := { streamId := 7, epoch := 3 }
    (∃ file changed, runSessions config [{ calls := [] }] .absent = .file file ∧
      DiffersAt 0 file changed ∧ ¬ InsidePadding [] 0 ∧
      ¬ ∃ read, WalSegmentReader.readAll (.file changed) = some read ∧
        read.records <+: config.records config.firstSequence [] ∧
        read.records ≠ config.records config.firstSequence []) ∧
    ∃ call file changed offset, runSessions config [{ calls := [call] }] .absent = .file file ∧
      DiffersAt offset file changed ∧ InsidePadding [call] offset ∧
      ¬ ∃ read, WalSegmentReader.readAll (.file changed) = some read ∧
        read.records = config.records config.firstSequence [call] := by
  intro config
  have hvalid : config.Valid := ⟨by decide, by decide, by decide⟩
  constructor
  · have hwritable : Writable config [{ calls := [] }] :=
      ⟨hvalid, by decide, by decide, by decide⟩
    refine ⟨_, _, hwritable.runSessions (by decide),
      .set (y := 0) (by decide +kernel) (by decide +kernel), ?_, ?_⟩
    · rintro ⟨earlier, call, later, hcalls, -⟩
      cases earlier <;> cases hcalls
    · rintro ⟨read, -, hrecords, hproper⟩
      exact hproper (List.prefix_nil.mp hrecords)
  · obtain ⟨payload, hlength, hchecksum⟩ := exists_payload (2 ^ 32 - 1)
    let call : Append := { recordType := 200, payload := payload }
    have hmod : UInt32.ofNat call.payload.length = 3 := by
      change UInt32.ofNat payload.length = 3
      rw [hlength]
      decide
    have hpadding : (paddingFor (.ofNat recordHeaderSize + .ofNat call.payload.length)
        defaultRecordAlignment).toNat = 5 := by
      rw [hmod]
      decide
    have hfile : runSessions config [{ calls := [call] }] .absent = .file
        (config.segmentBytes [] ++ ((config.recordHeader config.firstSequence call).toBytes ++
          (payload ++ [0, 0, 0, 0, 0]))) := by
      change WalSegmentWriter.session config [call] [] .absent = _
      rw [session_single, WalWriterConfig.appendedBytes, hpadding]
      rfl
    have hchange := (((DiffersAt.head [0, 0, 0, 0] (by decide : (0 : UInt8) ≠ 1)).append_left
      payload).append_left (config.recordHeader config.firstSequence call).toBytes).append_left
        (config.segmentBytes [])
    refine ⟨call, _, _, _, hfile, hchange, ⟨[], call, [], rfl, ?_, ?_⟩, ?_⟩
    · rw [WalWriterConfig.segmentBytes_length, WalRecordHeader.toBytes_length]
      change segmentHeaderSize + recordHeaderSize + payload.length ≤ _
      omega
    · rw [WalWriterConfig.segmentBytes_length, WalRecordHeader.toBytes_length]
      change _ < segmentHeaderSize + (frameLength payload.length + 0)
      unfold frameLength recordHeaderSize
      rw [hlength]
      change segmentHeaderSize + 0 + _ < _
      omega
    · have hstop := frontAt_oversized config config.firstSequence hmod hchecksum
        (by change 3 ≤ payload.length; omega) [1, 0, 0, 0, 0]
      have hnext : config.firstSequence + .ofNat ([] : List Append).length =
          config.firstSequence := rfl
      obtain ⟨read, hread, hnone, -⟩ := readAll_of_stop hvalid
        (List.forall_mem_nil _) (by decide) (by rw [hnext]; exact hstop)
      rintro ⟨read', hread', hrecords⟩
      cases hread.symm.trans hread'
      exact absurd (hnone.symm.trans hrecords) (by simp [WalWriterConfig.records])

end Wal
