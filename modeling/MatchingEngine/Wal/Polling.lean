import MatchingEngine.Wal.Crashes
import MatchingEngine.Wal.Tailing

/-!
# Polling a segment

A reader that is not told what was committed. It is opened and called at any time, while the
bytes of the writer reach the file in any portions and the writes of its device fail as they
like. It reads the first records that were appended, each of them once and as soon as it is
completely in the file, until it meets a record that is not.
-/

namespace Wal

open Framing InputStream

namespace WalSegmentReader

/-- A reader that returns no record any more, whatever becomes of the file. -/
inductive Dead (reader : WalSegmentReader) : Prop where
  | notOpened (hstatus : reader.openResult.status = .failed)
  | streamFailed (hopened : reader.openResult.status = .recordRead)
    (hfailed : reader.file.failed = true)

variable {file : List UInt8} {offset : ℕ} {reader : WalSegmentReader}

/-- Every call of a dead reader fails. -/
theorem Dead.readNext (h : Dead reader) (file : List UInt8) :
    ∃ result, reader.readNext file = (result, none, reader) ∧ result.status = .failed := by
  unfold WalSegmentReader.readNext
  cases h with
  | notOpened hstatus =>
    rw [if_pos (by rw [hstatus]; exact WalReadStatus.noConfusion)]
    exact ⟨_, rfl, hstatus⟩
  | streamFailed hopened hfailed =>
    rw [if_neg (not_not.mpr hopened), if_pos hfailed]
    exact ⟨_, rfl, rfl⟩

/-- A reader that meets a record that is cut off fails for good. -/
theorem readNext_incomplete (hopen : reader.openResult.status = .recordRead)
    (hstream : Positioned file offset reader.file) (hinside : offset < file.length)
    (hfront : frontAt reader.segmentHeader reader.expectedSequence (file.drop offset) =
      .stop .incompleteTrailingRecord) :
    ∃ result reader', reader.readNext file = (result, none, reader') ∧
      result.status = .failed ∧ Dead reader' := by
  have hcase := frontAt_case reader.segmentHeader reader.expectedSequence (file.drop offset)
  have hlength : (file.drop offset).length = file.length - offset := List.length_drop
  obtain ⟨-, gcount, hfile⟩ := hstream.resolve_right fun h => absurd h.1 (by omega)
  rw [hfront] at hcase
  generalize hreason : WalError.incompleteTrailingRecord = reason at hcase
  cases hcase with
  | torn _ hshort =>
    obtain ⟨stream, hread, hfailed⟩ := readNext_torn hopen hfile hinside (by omega)
    exact ⟨_, _, hread, rfl, .streamFailed hopen hfailed⟩
  | refused hlong hheader hrefusal =>
    exact absurd hreason.symm (WalRecordHeader.refusal_ne_incomplete hrefusal)
  | tornPayload hlong hheader haccepted hshort =>
    obtain ⟨stream, hread, hfailed⟩ := readNext_tornPayload hopen hfile hheader haccepted
      (by omega) (by omega)
    exact ⟨_, _, hread, rfl, .streamFailed hopen hfailed⟩
  | mismatch => cases hreason

/-- A file that ends inside its header, or that is missing, is not opened. -/
theorem create_of_short {entry : FileEntry}
    (hshort : (entry.bytes?.getD []).length < segmentHeaderSize) :
    (create entry).openResult.status = .failed := by
  cases entry with
  | absent => rfl
  | directory => rfl
  | file bytes =>
    have hinvalid : ¬ SegmentHeaderValid bytes :=
      fun h => absurd h.complete (Nat.not_le.mpr hshort)
    obtain ⟨error, opened, hread, -⟩ := readSegmentHeader_of_invalid hinvalid
    unfold create
    simp only [FileEntry.openRead, hread]

end WalSegmentReader

namespace Tailing

/-- One action, when the reader is opened and called at any time. -/
def poll (s : Tailing) : TailingAction → Tailing
  | .openReader =>
    match s.reader with
    | none => { s with reader := some (WalSegmentReader.create s.writer.file.entry) }
    | some _ => s
  | .readNext =>
    match s.reader with
    | none => s
    | some reader =>
      let read := reader.readNext s.disk
      { s with reader := some read.2.2, reads := s.reads ++ [(read.1, read.2.1)] }
  | action => s.step action

/-- Actions in any order. -/
def polls (s : Tailing) (actions : List TailingAction) : Tailing := actions.foldl poll s

/-- The reads that returned a record. -/
def recordsRead (s : Tailing) : List (WalReadResult × Option WalRecordView) :=
  s.reads.filter fun read => read.1.status = .recordRead

/-- A reader that is opened at any time and has read so many records. -/
inductive Watches (config : WalWriterConfig) (s : Tailing) (count : ℕ) : Prop where
  | unopened (hreader : s.reader = none) (hreads : s.reads = []) (hcount : count = 0)
  | live {reader : WalSegmentReader} (hreader : s.reader = some reader)
    (hbehind : Behind config (s.calls.take count) s.disk reader)
    (hok : ∀ read ∈ s.reads, read.1.status ≠ .failed)
  | dead {reader : WalSegmentReader} (hreader : s.reader = some reader) (hdead : reader.Dead)
    (hfailed : reader.openResult.status = .failed ∨ ∃ read ∈ s.reads, read.1.status = .failed)

/-- What all actions keep. -/
structure Polls (config : WalWriterConfig) (opened : WalSegmentWriter) (s : Tailing)
    (count : ℕ) : Prop where
  writer : WalSegmentWriter.Refused .absent s.writer ∨
    WalSegmentWriter.Underway config [] opened s.calls s.results s.writer
  aligned : ∀ call ∈ s.calls, call.Aligned
  nowrap : config.firstSequence.toNat + s.calls.length ≤ 2 ^ 64
  count_le : count ≤ s.calls.length
  acknowledged : count ≤ (appendedPositions s.results).length + 1
  records : s.recordsRead = readsOf config (s.calls.take count)
  /-- After a failure there are only failures. -/
  failed : s.reads.Pairwise fun earlier later =>
    earlier.1.status = .failed → later.1.status = .failed
  reader : Watches config s count

variable {config : WalWriterConfig} {opened : WalSegmentWriter} {s : Tailing} {count : ℕ}

/-- The file holds the first bytes of the records that were attempted. -/
theorem Polls.disk_eq (h : Polls config opened s count) :
    ∃ attempted, attempted <+: s.calls ∧
      attempted.length ≤ (appendedPositions s.results).length + 1 ∧
      s.disk = (config.segmentBytes attempted).take s.disk.length := by
  rcases h.writer with hrefused | hunderway
  · have hdisk : s.disk = [] := by rw [disk, hrefused.entry]; rfl
    exact ⟨[], List.nil_prefix, Nat.zero_le _, by rw [hdisk]; rfl⟩
  · obtain ⟨written, hentry, hprefix⟩ := hunderway.file.written
    have hdisk : s.disk = written := by rw [disk, hentry]; rfl
    rw [hdisk]
    refine ⟨_, List.take_prefix _ _, List.length_take_le _ _, ?_⟩
    exact List.prefix_iff_eq_take.mp ((List.prefix_append _ _).trans hprefix)

/-- A file that grows gets longer, if there is one. -/
theorem disk_le_of_grows {s' : Tailing} (hgrows : s.writer.file.Grows s'.writer.file) :
    s.disk.length ≤ s'.disk.length := by
  cases hentry : s.writer.file.entry with
  | file bytes =>
    have hdisk : s.disk = bytes := by rw [disk, hentry]; rfl
    exact disk_le hgrows (by rw [hentry, hdisk])
  | absent =>
    have hdisk : s.disk = [] := by rw [disk, hentry]; rfl
    rw [hdisk]
    exact Nat.zero_le _
  | directory =>
    have hdisk : s.disk = [] := by rw [disk, hentry]; rfl
    rw [hdisk]
    exact Nat.zero_le _

/-- What the writer does leaves the reader where it is. -/
theorem Polls.grow (h : Polls config opened s count) {s' : Tailing} (more : List Append)
    (hreader : s'.reader = s.reader) (hreads : s'.reads = s.reads)
    (hcalls : s'.calls = s.calls ++ more) (haligned : ∀ call ∈ s'.calls, call.Aligned)
    (hnowrap : config.firstSequence.toNat + s'.calls.length ≤ 2 ^ 64)
    (hresults : (appendedPositions s.results).length ≤ (appendedPositions s'.results).length)
    (hgrows : s.writer.file.Grows s'.writer.file)
    (hwriter : WalSegmentWriter.Refused .absent s'.writer ∨
      WalSegmentWriter.Underway config [] opened s'.calls s'.results s'.writer) :
    Polls config opened s' count := by
  have htake : s'.calls.take count = s.calls.take count := by
    rw [hcalls, List.take_append_of_le_length h.count_le]
  have hcount := h.count_le
  have hacknowledged := h.acknowledged
  refine ⟨hwriter, haligned, hnowrap, ?_, by omega, ?_, ?_, ?_⟩
  · rw [hcalls, List.length_append]
    omega
  · rw [htake, recordsRead, hreads]
    exact h.records
  · rw [hreads]
    exact h.failed
  · cases h.reader with
    | unopened hnone hempty hzero =>
      exact .unopened (hreader.trans hnone) (hreads.trans hempty) hzero
    | live hsome hbehind hok =>
      refine .live (hreader.trans hsome) ?_ (by rw [hreads]; exact hok)
      rw [htake]
      exact hbehind.grow (disk_le_of_grows hgrows)
    | dead hsome hdead hfailed =>
      exact .dead (hreader.trans hsome) hdead (by rw [hreads]; exact hfailed)

/-- A call of the writer. -/
theorem Polls.write (h : Polls config opened s count) (c : WriterCall)
    (haligned : ∀ call ∈ c.append?.toList, call.Aligned)
    (hnowrap : config.firstSequence.toNat + (s.calls ++ c.append?.toList).length ≤ 2 ^ 64) :
    Polls config opened (s.poll (.write c)) count := by
  have hmore : (TailingAction.write c).append?.toList = c.append?.toList := by cases c <;> rfl
  have hcalls : (s.poll (.write c)).calls = s.calls ++ c.append?.toList :=
    congrArg (s.calls ++ ·) hmore
  refine h.grow _ rfl rfl hcalls ?_ (by rw [hcalls]; exact hnowrap) ?_ (s.writer.grows_call c) ?_
  · rw [hcalls]
    intro call hcall
    exact (List.mem_append.mp hcall).elim (h.aligned call) (haligned call)
  · change _ ≤ (appendedPositions (s.results ++ [(s.writer.call c).1])).length
    rw [appendedPositions_concat, List.length_append]
    exact Nat.le_add_right _ _
  · rw [hcalls]
    rcases h.writer with hrefused | hunderway
    · exact .inl (hrefused.run [c]).2
    · exact .inr (hunderway.call fun call hcall => (haligned call hcall).1)

/-- Bytes that are held back reach the file. -/
theorem Polls.spill (h : Polls config opened s count) (bytes : ℕ) :
    Polls config opened (s.poll (.spill bytes)) count := by
  refine h.grow [] rfl rfl (List.append_nil _).symm h.aligned h.nowrap le_rfl
    (OutputStream.grows_spill _ _) ?_
  rcases h.writer with hrefused | hunderway
  · refine .inl ⟨hrefused.writerError, ?_, hrefused.isOpen⟩
    change FileEntry.append _ s.writer.file.entry = _
    rw [hrefused.entry]
    rfl
  · exact .inr (hunderway.spill bytes)

/-- The reader is opened. -/
theorem Polls.openReader (h : Polls config opened s count) (hvalid : config.Valid) :
    Polls config opened (s.poll .openReader) count := by
  cases hreader : s.reader with
  | some reader =>
    have hstep : s.poll .openReader = s := by
      unfold poll
      rw [hreader]
    rw [hstep]
    exact h
  | none =>
    have hstep : s.poll .openReader =
        { s with reader := some (WalSegmentReader.create s.writer.file.entry) } := by
      unfold poll
      rw [hreader]
    obtain ⟨hreads, rfl⟩ : s.reads = [] ∧ count = 0 := by
      cases h.reader with
      | unopened _ hreads hcount => exact ⟨hreads, hcount⟩
      | live hsome => exact absurd (hreader.symm.trans hsome) (by simp)
      | dead hsome => exact absurd (hreader.symm.trans hsome) (by simp)
    rw [hstep]
    refine ⟨h.writer, h.aligned, h.nowrap, h.count_le, h.acknowledged, h.records, h.failed, ?_⟩
    rcases Nat.lt_or_ge s.disk.length segmentHeaderSize with hshort | hlong
    · have hfailed := WalSegmentReader.create_of_short hshort
      exact .dead rfl (.notOpened hfailed) (.inl hfailed)
    · obtain ⟨attempted, -, -, hdisk⟩ := h.disk_eq
      have hentry : s.writer.file.entry = .file s.disk := by
        unfold disk at hlong ⊢
        cases hfile : s.writer.file.entry with
        | file bytes => rfl
        | absent =>
          rw [hfile] at hlong
          exact absurd hlong (by decide)
        | directory =>
          rw [hfile] at hlong
          exact absurd hlong (by decide)
      have hheader : SegmentHeaderValid s.disk := by
        rw [hdisk]
        exact (WalWriterConfig.segmentHeader_valid hvalid _).take hlong
      have hsegment : segmentHeaderOf s.disk = config.segmentHeader := by
        rw [hdisk, segmentHeaderOf_take hlong, WalWriterConfig.segmentBytes,
          segmentHeaderOf_append]
      refine .live rfl ?_ (by rw [hreads]; simp)
      rw [hentry, WalSegmentReader.create_of_valid hheader, hsegment]
      exact ⟨rfl, rfl, rfl, ⟨_, rfl⟩, hlong⟩

/-- The number that a reader behind some records expects. -/
theorem Behind.expected {calls : List Append} {bytes : List UInt8} {reader : WalSegmentReader}
    (h : Behind config calls bytes reader) (hvalid : config.Valid)
    (hwrap : config.firstSequence.toNat + calls.length ≤ 2 ^ 64) :
    reader.expectedSequence = config.firstSequence + .ofNat calls.length := by
  rw [WalSegmentReader.expectedSequence, h.segment, h.last]
  exact WalSegmentWriter.nextSequence_of_last hvalid hwrap

/-- A reader behind all records that are in the file finds its end and stays there. -/
theorem Behind.endOfLog {calls : List Append} {bytes : List UInt8} {reader : WalSegmentReader}
    (h : Behind config calls bytes reader) (hend : bytes.length = boundaryAfter calls) :
    ∃ reader', Behind config calls bytes reader' ∧ reader.readNext bytes =
      ({ status := .endOfLog, error := .endOfLog, position := reader.lastPosition }, none,
        reader') := by
  obtain ⟨gcount, hstream⟩ := h.stream
  obtain ⟨stream, hread, hpositioned⟩ :=
    WalSegmentReader.readNext_end h.opened (.inl ⟨h.inside, gcount, hstream⟩) hend.le
  obtain ⟨-, hfile⟩ := hpositioned.resolve_right fun h => absurd h.1 (lt_irrefl _)
  rw [hend] at hfile
  exact ⟨{ reader with file := stream }, ⟨h.opened, h.segment, h.last, hfile, h.inside⟩, hread⟩

/-- A reader in front of a record that is not completely in the file fails for good. -/
theorem Behind.torn {earlier later : List Append} {call : Append} {bytes : List UInt8}
    {reader : WalSegmentReader} (h : Behind config earlier bytes reader) (hvalid : config.Valid)
    (hcall : call.Aligned) (hwrap : config.firstSequence.toNat + earlier.length ≤ 2 ^ 64)
    (hbytes : bytes = (config.segmentBytes (earlier ++ call :: later)).take bytes.length)
    (hsome : boundaryAfter earlier < bytes.length)
    (hpart : bytes.length < boundaryAfter (earlier ++ [call])) :
    ∃ result reader', reader.readNext bytes = (result, none, reader') ∧
      result.status = .failed ∧ reader'.Dead := by
  obtain ⟨gcount, hstream⟩ := h.stream
  refine WalSegmentReader.readNext_incomplete h.opened (.inl ⟨h.inside, gcount, hstream⟩) hsome ?_
  have hlength : (config.segmentBytes earlier).length = boundaryAfter earlier :=
    WalWriterConfig.segmentBytes_length _ _
  rw [h.segment, h.expected hvalid hwrap, hbytes, take_segmentBytes rfl hsome.le hpart,
    List.drop_left' hlength]
  exact frontAt_torn hcall.1 (Nat.sub_pos_of_lt hsome) (hcall.size_lt hpart)

/-- What a call of a live reader meets: the end of the file, a record that is completely in
the file, or a part of one. -/
inductive PollCase (config : WalWriterConfig) (s : Tailing) (count : ℕ)
    (reader : WalSegmentReader) :
    WalReadResult × Option WalRecordView × WalSegmentReader → Prop where
  | endOfLog {reader' : WalSegmentReader}
    (hend : s.disk.length = boundaryAfter (s.calls.take count))
    (hbehind : Behind config (s.calls.take count) s.disk reader') :
    PollCase config s count reader
      ({ status := .endOfLog, error := .endOfLog, position := reader.lastPosition }, none, reader')
  | record {call : Append} {reader' : WalSegmentReader} (hcall : s.calls[count]? = some call)
    (hacknowledged : count + 1 ≤ (appendedPositions s.results).length + 1)
    (hcomplete : boundaryAfter (s.calls.take (count + 1)) ≤ s.disk.length)
    (hbehind : Behind config (s.calls.take (count + 1)) s.disk reader') :
    PollCase config s count reader
      ((readOf (config.view (config.firstSequence + .ofNat count) call)).1,
        (readOf (config.view (config.firstSequence + .ofNat count) call)).2, reader')
  | torn {result : WalReadResult} {reader' : WalSegmentReader}
    (hsome : boundaryAfter (s.calls.take count) < s.disk.length)
    (hpart : s.disk.length < boundaryAfter (s.calls.take (count + 1)))
    (hfailed : result.status = .failed) (hdead : reader'.Dead) :
    PollCase config s count reader (result, none, reader')

/-- A call of a live reader meets one of these. -/
theorem Polls.pollCase (h : Polls config opened s count) (hvalid : config.Valid)
    {reader : WalSegmentReader} (hbehind : Behind config (s.calls.take count) s.disk reader) :
    PollCase config s count reader (reader.readNext s.disk) := by
  obtain ⟨attempted, ⟨later, hcalls⟩, hattempted, hdisk⟩ := h.disk_eq
  have hlength : (s.calls.take count).length = count := by
    rw [List.length_take, min_eq_left h.count_le]
  have hnowrap := h.nowrap
  rcases hbehind.inside.eq_or_lt with hend | hsome
  · obtain ⟨reader', hbehind', hread⟩ := hbehind.endOfLog hend.symm
    rw [hread]
    exact .endOfLog hend.symm hbehind'
  · have hcount : count < attempted.length := by
      by_contra hle
      have hall : attempted <+: s.calls.take count := by
        refine List.prefix_of_prefix_length_le ⟨later, hcalls⟩ (List.take_prefix _ _) ?_
        rw [hlength]
        omega
      have hmono := boundaryAfter_mono hall
      have hbytes := congrArg List.length hdisk
      rw [List.length_take, WalWriterConfig.segmentBytes_length] at hbytes
      unfold boundaryAfter at hmono hsome
      omega
    have hindex : count < s.calls.length := by
      have hle := congrArg List.length hcalls
      rw [List.length_append] at hle
      omega
    have hcall : s.calls[count]? = some s.calls[count] := List.getElem?_eq_getElem hindex
    have hsplit : attempted = s.calls.take count ++
        s.calls[count] :: attempted.drop (count + 1) := by
      have htake : s.calls.take count = attempted.take count := by
        rw [← hcalls, List.take_append_of_le_length hcount.le]
      have hsame : attempted[count] = s.calls[count] := by
        rw [List.getElem_eq_iff, ← hcall, ← hcalls, List.getElem?_append_left hcount]
      rw [htake, ← hsame, List.getElem_cons_drop, List.take_append_drop]
    have htake : s.calls.take (count + 1) = s.calls.take count ++ [s.calls[count]] :=
      List.take_succ_eq_append_getElem hindex
    have haligned := h.aligned _ (List.getElem_mem hindex)
    rw [hsplit] at hdisk
    rcases Nat.lt_or_ge s.disk.length (boundaryAfter (s.calls.take (count + 1))) with
      hpart | hcomplete
    · obtain ⟨result, reader', hread, hfailed, hdead⟩ := hbehind.torn hvalid haligned
        (by omega) hdisk hsome (by rw [← htake]; exact hpart)
      rw [hread]
      exact .torn hsome hpart hfailed hdead
    · obtain ⟨reader', hbehind', hread⟩ := hbehind.record hvalid haligned.1 (by omega) hdisk
        (by rw [← htake]; exact hcomplete)
      rw [hlength] at hread
      rw [← htake] at hbehind'
      rw [hread]
      exact .record hcall (by omega) hcomplete hbehind'

/-- One more read. -/
theorem Polls.read_of (h : Polls config opened s count) {count' : ℕ}
    {read : WalReadResult × Option WalRecordView} {reader : WalSegmentReader}
    (hcount : count' ≤ s.calls.length)
    (hacknowledged : count' ≤ (appendedPositions s.results).length + 1)
    (hrecords : readsOf config (s.calls.take count) ++
        [read].filter (fun read => read.1.status = .recordRead) =
      readsOf config (s.calls.take count'))
    (hfailed : ∀ earlier ∈ s.reads, earlier.1.status = .failed → read.1.status = .failed)
    (hreader : Watches config { s with reader := some reader, reads := s.reads ++ [read] } count') :
    Polls config opened { s with reader := some reader, reads := s.reads ++ [read] } count' := by
  refine ⟨h.writer, h.aligned, h.nowrap, hcount, hacknowledged, ?_, ?_, hreader⟩
  · rw [← hrecords, ← h.records]
    exact List.filter_append _ _
  · refine List.pairwise_append.mpr ⟨h.failed, List.pairwise_singleton _ _, ?_⟩
    intro earlier hearlier later hlater
    rw [List.mem_singleton.mp hlater]
    exact hfailed earlier hearlier

/-- A call of the reader. -/
theorem Polls.readNext (h : Polls config opened s count) (hvalid : config.Valid) :
    ∃ count', Polls config opened (s.poll .readNext) count' := by
  cases hreader : s.reader with
  | none =>
    have hstep : s.poll .readNext = s := by
      unfold poll
      rw [hreader]
    rw [hstep]
    exact ⟨count, h⟩
  | some reader =>
    have hstep : s.poll .readNext = { s with
        reader := some (reader.readNext s.disk).2.2
        reads := s.reads ++ [((reader.readNext s.disk).1, (reader.readNext s.disk).2.1)] } := by
      unfold poll
      rw [hreader]
    rw [hstep]
    cases h.reader with
    | unopened hnone => exact absurd (hreader.symm.trans hnone) (by simp)
    | @live other hsome hbehind hok =>
      obtain rfl : reader = other := Option.some.inj (hreader.symm.trans hsome)
      have hcase := h.pollCase hvalid hbehind
      have hearlier : ∀ read : WalReadResult × Option WalRecordView, ∀ earlier ∈ s.reads,
          earlier.1.status = .failed → read.1.status = .failed :=
        fun read earlier hmem hfailed => absurd hfailed (hok earlier hmem)
      generalize reader.readNext s.disk = outcome at hcase ⊢
      cases hcase with
      | endOfLog hend hbehind' =>
        refine ⟨count, h.read_of h.count_le h.acknowledged (List.append_nil _) (hearlier _)
          (.live rfl hbehind' fun read hread => ?_)⟩
        rcases List.mem_append.mp hread with hread | hread
        · exact hok read hread
        · rw [List.mem_singleton.mp hread]
          exact WalReadStatus.noConfusion
      | @record call reader' hcall hacknowledged hcomplete hbehind' =>
        have hindex : count < s.calls.length := (List.getElem?_eq_some_iff.mp hcall).1
        have hlength : (s.calls.take count).length = count := by
          rw [List.length_take, min_eq_left h.count_le]
        have htake : s.calls.take (count + 1) = s.calls.take count ++ [call] := by
          rw [List.take_add_one, hcall, Option.toList_some]
        refine ⟨count + 1, h.read_of hindex hacknowledged ?_ (hearlier _)
          (.live rfl hbehind' fun read hread => ?_)⟩
        · rw [htake, readsOf, readsOf, WalWriterConfig.views_append, List.map_append, hlength]
          rfl
        · rcases List.mem_append.mp hread with hread | hread
          · exact hok read hread
          · rw [List.mem_singleton.mp hread]
            exact WalReadStatus.noConfusion
      | torn hsome hpart hfailed hdead =>
        refine ⟨count, h.read_of h.count_le h.acknowledged ?_ (hearlier _)
          (.dead rfl hdead (.inr ⟨_, List.mem_append_right _ List.mem_cons_self, hfailed⟩))⟩
        rw [List.filter_singleton, hfailed]
        exact List.append_nil _
    | @dead other hsome hdead hcause =>
      obtain rfl : reader = other := Option.some.inj (hreader.symm.trans hsome)
      obtain ⟨result, hread, hfailed⟩ := hdead.readNext s.disk
      rw [hread]
      refine ⟨count, h.read_of h.count_le h.acknowledged ?_ (fun _ _ _ => hfailed)
        (.dead rfl hdead (.inr ⟨_, List.mem_append_right _ List.mem_cons_self, hfailed⟩))⟩
      rw [List.filter_singleton, hfailed]
      exact List.append_nil _

/-- Every action keeps this, as long as the records need no padding and their numbers do not
wrap. -/
theorem Polls.poll (h : Polls config opened s count) (hvalid : config.Valid)
    {action : TailingAction} (haligned : ∀ call ∈ action.append?.toList, call.Aligned)
    (hnowrap : config.firstSequence.toNat + (s.calls ++ action.append?.toList).length ≤ 2 ^ 64) :
    ∃ count', Polls config opened (s.poll action) count' := by
  cases action with
  | write c =>
    have hmore : (TailingAction.write c).append?.toList = c.append?.toList := by cases c <;> rfl
    rw [hmore] at haligned hnowrap
    exact ⟨count, h.write c haligned hnowrap⟩
  | spill bytes => exact ⟨count, h.spill bytes⟩
  | openReader => exact ⟨count, h.openReader hvalid⟩
  | readNext => exact h.readNext hvalid

/-- A writer on a fresh path, whether or not it can be opened. -/
theorem polls_start (config : WalWriterConfig) (outcomes : List SinkOutcome) :
    Polls config (start config outcomes).writer (start config outcomes) 0 where
  writer := WalSegmentWriter.create_fresh config (.inl rfl) outcomes
  aligned _ h := absurd h List.not_mem_nil
  nowrap := config.firstSequence.toNat_lt.le
  count_le := le_rfl
  acknowledged := Nat.zero_le _
  records := rfl
  failed := .nil
  reader := .unopened rfl rfl rfl

/-- The records that were appended are those of the appends. -/
theorem calls_poll (s : Tailing) (action : TailingAction) :
    (s.poll action).calls = s.calls ++ action.append?.toList := by
  cases action with
  | write c => exact calls_step s (.write c)
  | spill bytes => exact calls_step s (.spill bytes)
  | openReader =>
    refine Eq.trans ?_ (List.append_nil _).symm
    unfold poll
    cases s.reader with
    | none => rfl
    | some reader => rfl
  | readNext =>
    refine Eq.trans ?_ (List.append_nil _).symm
    unfold poll
    cases s.reader with
    | none => rfl
    | some reader => rfl

/-- All actions keep this. -/
theorem Polls.polls (h : Polls config opened s count) (hvalid : config.Valid)
    {actions : List TailingAction}
    (haligned : ∀ call ∈ actions.filterMap TailingAction.append?, call.Aligned)
    (hnowrap : config.firstSequence.toNat +
      (s.calls ++ actions.filterMap TailingAction.append?).length ≤ 2 ^ 64) :
    (∃ count', Polls config opened (s.polls actions) count') ∧
      (s.polls actions).calls = s.calls ++ actions.filterMap TailingAction.append? := by
  induction actions generalizing s count with
  | nil => exact ⟨⟨count, h⟩, (List.append_nil _).symm⟩
  | cons action actions ih =>
    have hsplit : (action :: actions).filterMap TailingAction.append? =
        action.append?.toList ++ actions.filterMap TailingAction.append? := by
      rw [List.filterMap_cons]
      cases action.append? with
      | none => rfl
      | some call => rfl
    rw [hsplit, ← List.append_assoc] at hnowrap
    rw [hsplit] at haligned
    obtain ⟨count', hstep⟩ := h.poll hvalid
      (fun call hcall => haligned call (List.mem_append_left _ hcall))
      (by rw [List.length_append] at hnowrap; omega)
    have hcalls := calls_poll s action
    rw [← hcalls] at hnowrap
    have hrest := ih hstep (fun call hcall => haligned call (List.mem_append_right _ hcall)) hnowrap
    rw [hcalls, List.append_assoc, ← hsplit] at hrest
    exact hrest

/-- The records read are counted. -/
theorem Polls.count_eq (h : Polls config opened s count) : s.recordsRead.length = count := by
  rw [h.records, readsOf, List.length_map, WalWriterConfig.views_length, List.length_take,
    min_eq_left h.count_le]

/-- The record behind those that were read is completely in the file if it was committed. -/
theorem Polls.visible (h : Polls config opened s count)
    (hopened : segmentHeaderSize ≤ s.disk.length)
    (hcount : count < (publishedPositions s.results).length) :
    count < s.calls.length ∧ boundaryAfter (s.calls.take (count + 1)) ≤ s.disk.length := by
  rcases h.writer with hrefused | hunderway
  · have hdisk : s.disk = [] := by rw [disk, hrefused.entry]; rfl
    rw [hdisk] at hopened
    exact absurd hopened (by decide)
  · obtain ⟨written, hentry, -⟩ := hunderway.file.written
    have hdisk : s.disk = written := by rw [disk, hentry]; rfl
    have hvisible := hunderway.visible written hentry
    rw [List.nil_append, ← hdisk] at hvisible
    have happended := hunderway.count
    have hpublished := (published_isPrefix s.results).length_le
    have hmono : boundaryAfter (s.calls.take (count + 1)) ≤
        boundaryAfter (s.calls.take (publishedPositions s.results).length) :=
      boundaryAfter_mono (List.take_prefix_take_left hcount)
    unfold boundaryAfter at hmono ⊢
    omega

/-- A reader that is opened and polled at any time, in any interleaving with a writer on a
fresh path whose device fails as it likes. It has read the first records that were appended, in
their order and each of them once, and at most one that was not acknowledged; after a failure
there are only failures. As long as it has not failed, the next call returns the next record
exactly if it is completely in the file, and the end of the log exactly if nothing of it is;
and what a commit has acknowledged is completely there. -/
theorem polls_read_appended {config : WalWriterConfig} (hvalid : config.Valid)
    (outcomes : List SinkOutcome) {actions : List TailingAction}
    (haligned : ∀ call ∈ actions.filterMap TailingAction.append?, call.Aligned)
    (hnowrap : config.firstSequence.toNat +
      (actions.filterMap TailingAction.append?).length ≤ 2 ^ 64) :
    let s := polls (start config outcomes) actions
    let appends := actions.filterMap TailingAction.append?
    let count := s.recordsRead.length
    s.recordsRead = readsOf config (appends.take count) ∧
      count ≤ (appendedPositions s.results).length + 1 ∧
      (s.reads.Pairwise fun earlier later =>
        earlier.1.status = .failed → later.1.status = .failed) ∧
      ∀ reader, s.reader = some reader → reader.openResult.status = .recordRead →
        (∀ read ∈ s.reads, read.1.status ≠ .failed) →
        ((reader.readNext s.disk).1.status =
            if s.disk.length = boundaryAfter (appends.take count) then .endOfLog
            else if boundaryAfter (appends.take (count + 1)) ≤ s.disk.length then .recordRead
            else .failed) ∧
          (count < (publishedPositions s.results).length →
            (reader.readNext s.disk).1.status = .recordRead) := by
  intro s appends count
  obtain ⟨⟨count', hpolls⟩, hcalls⟩ := (polls_start config outcomes).polls hvalid haligned hnowrap
  change Polls config _ s count' at hpolls
  change s.calls = appends at hcalls
  obtain rfl : count = count' := hpolls.count_eq
  refine ⟨by rw [← hcalls]; exact hpolls.records, hpolls.acknowledged, hpolls.failed, ?_⟩
  intro reader hreader hopened hok
  obtain ⟨other, hsome, hbehind⟩ : ∃ other, s.reader = some other ∧
      Behind config (s.calls.take count) s.disk other := by
    cases hpolls.reader with
    | unopened hnone => exact absurd (hreader.symm.trans hnone) (by simp)
    | live hsome hbehind _ => exact ⟨_, hsome, hbehind⟩
    | dead hsome hdead hfailed =>
      obtain rfl := Option.some.inj (hsome.symm.trans hreader)
      rcases hfailed with hfailed | ⟨read, hread, hfailed⟩
      · exact absurd (hopened.symm.trans hfailed) WalReadStatus.noConfusion
      · exact absurd hfailed (hok read hread)
  obtain rfl : reader = other := Option.some.inj (hreader.symm.trans hsome)
  have hcase := hpolls.pollCase hvalid hbehind
  have hinside := hbehind.inside
  have hvisible := hpolls.visible ((Nat.le_add_right _ _).trans hinside)
  rw [← hcalls]
  generalize reader.readNext s.disk = outcome at hcase ⊢
  cases hcase with
  | endOfLog hend =>
    refine ⟨(if_pos hend).symm, fun hcount => ?_⟩
    obtain ⟨hindex, hcomplete⟩ := hvisible hcount
    rw [List.take_succ_eq_append_getElem hindex, boundaryAfter_concat] at hcomplete
    have hpos := (frameLength_bounds s.calls[count].payload.length).1
    unfold recordHeaderSize at hpos
    omega
  | @record call _ hcall _ hcomplete =>
    refine ⟨?_, fun _ => rfl⟩
    have hindex : count < s.calls.length := (List.getElem?_eq_some_iff.mp hcall).1
    have hmore := hcomplete
    rw [List.take_succ_eq_append_getElem hindex, boundaryAfter_concat] at hmore
    have hpos := (frameLength_bounds s.calls[count].payload.length).1
    unfold recordHeaderSize at hpos
    rw [if_neg (by omega), if_pos hcomplete]
    rfl
  | torn hsome hpart hfailed =>
    refine ⟨?_, fun hcount => ?_⟩
    · rw [if_neg hsome.ne', if_neg (Nat.not_le.mpr hpart)]
      exact hfailed
    · exact absurd (hvisible hcount).2 (Nat.not_le.mpr hpart)

/-- The reader is opened before the first commit and meets a part of the second record. -/
theorem polls_read_appended_torn :
    let config : WalWriterConfig := { streamId := 7, epoch := 3 }
    let actions : List TailingAction :=
      [.spill 40, .openReader, .readNext, .write (.append { recordType := 1, payload := [] }),
        .write .commit, .readNext, .write (.append { recordType := 2, payload := [] }), .spill 9,
        .readNext, .write .commit, .readNext]
    let s := polls (start config []) actions
    s.reads.map (fun read => read.1.status) = [.endOfLog, .recordRead, .failed, .failed] ∧
      s.recordsRead.length ≤ (appendedPositions s.results).length + 1 := by
  intro config actions s
  refine ⟨by decide +kernel, ?_⟩
  exact (@polls_read_appended config ⟨by decide, by decide, by decide⟩ [] actions (by decide)
    (by decide)).2.1

end Tailing

end Wal
