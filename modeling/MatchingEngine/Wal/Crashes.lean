import MatchingEngine.Wal.FaultyWriter

/-!
# Processes that crash

Processes write to one path, one after the other. Each opens a writer, makes any calls on a
device whose writes fail as they like, and ends or is killed at any time, with any part of
the bytes it holds back in the file. A process whose device has failed is killed before it
closes the file: closing would write once more what has arrived in part. `Keeps` is the form in
which every one of them finds and leaves the path: some records, and possibly a part of one more.

This is about records whose payload needs no padding, as the payloads of commands and events
do. A cut in a padding is not found by the scan.
-/

namespace Wal

open Framing

/-- The record fits its length field and needs no padding. -/
def Append.Aligned (call : Append) : Prop := call.Fits ∧ 8 ∣ call.payload.length

instance (call : Append) : Decidable call.Aligned := inferInstanceAs (Decidable (_ ∧ _))

/-- A part of the frame of such a record is without a part of its payload. -/
theorem Append.Aligned.size_lt {call : Append} (h : call.Aligned) {earlier : List Append}
    {cut : ℕ} (hcut : cut < boundaryAfter (earlier ++ [call])) :
    cut - boundaryAfter earlier < recordHeaderSize + call.payload.length := by
  obtain ⟨n, hn⟩ := h.2
  rw [boundaryAfter_concat, hn] at hcut
  unfold frameLength recordHeaderSize at hcut
  unfold recordHeaderSize
  omega

/-- A process that writes: its calls, what the device makes of the operations of its stream,
and whether it is killed before its writer goes out of scope. -/
structure ProcessRun where
  calls : List WriterCall
  outcomes : List SinkOutcome := []
  killed : Bool := false
  deriving DecidableEq

/-- The process does not live to close its file: it is killed, at the latest because an operation
of its stream has failed. -/
def ProcessRun.dies (process : ProcessRun) : Bool :=
  process.killed || process.outcomes.any SinkOutcome.fails

/-- Processes one after the other on one path. Each of them answers with the results of its
calls. -/
def processMachine (config : WalWriterConfig) :
    Machine FileEntry ProcessRun (List WriterResult) where
  step entry process :=
    let opened := WalSegmentWriter.create config { entry := entry, outcomes := process.outcomes }
    let ran := WalSegmentWriter.machine.run opened process.calls
    ([ran.1], if process.dies then ran.2.file.entry else ran.2.destroy)

/-- What is found on the path between two processes: nothing, a part of a segment header, or
records with possibly a part of one more behind them. -/
inductive Keeps (config : WalWriterConfig) : List Append → FileEntry → Prop where
  | absent : Keeps config [] .absent
  | header {bytes : List UInt8} (hfirst : bytes <+: config.segmentHeader.toBytes)
    (hshort : bytes.length < segmentHeaderSize) : Keeps config [] (.file bytes)
  | records {kept : List Append} {torn : List UInt8} {ending : Option WalError}
    (hfits : ∀ call ∈ kept, call.Fits)
    (htorn : Frames config.segmentHeader (config.firstSequence + .ofNat kept.length) torn [] 0
      ending)
    (hending : ending = none ∧ torn = [] ∨ ending = some .incompleteTrailingRecord) :
    Keeps config kept (.file (config.segmentBytes kept ++ torn))

variable {config : WalWriterConfig}

/-! ## Reading -/

/-- The records that are kept are read back, and nothing else. -/
theorem Keeps.readAll {kept : List Append} {entry : FileEntry} (h : Keeps config kept entry)
    (hvalid : config.Valid) (hwrap : config.firstSequence.toNat + kept.length ≤ 2 ^ 64) :
    ∃ read, WalSegmentReader.readAll entry = some read ∧
      read.records = config.records config.firstSequence kept := by
  cases h with
  | absent => exact ⟨_, rfl, rfl⟩
  | header hfirst hshort =>
    have hinvalid : ¬ SegmentHeaderValid _ := fun h => absurd h.complete (Nat.not_le.mpr hshort)
    obtain ⟨error, hread⟩ := WalSegmentReader.readAll_of_invalid hinvalid
    exact ⟨_, hread, rfl⟩
  | records hfits htorn hending =>
    obtain ⟨last, hread⟩ := readAll_append hvalid hfits htorn
      (WalSegmentReader.countsOn_of_le hvalid.2.2 (by rw [List.length_nil]; exact hwrap))
    exact ⟨_, hread, List.append_nil _⟩

/-! ## What a cut leaves -/

/-- Records whose frames fit into the room are among those that do. -/
theorem prefix_recordsWithin {earlier calls : List Append} {room : ℕ} (hfirst : earlier <+: calls)
    (hroom : WalWriterConfig.framesLength earlier ≤ room) :
    earlier <+: recordsWithin room calls := by
  induction earlier generalizing calls room with
  | nil => exact List.nil_prefix
  | cons call earlier ih =>
    obtain ⟨rest, rfl⟩ := hfirst
    have hlength : WalWriterConfig.framesLength (call :: earlier) =
        frameLength call.payload.length + WalWriterConfig.framesLength earlier := rfl
    rw [hlength] at hroom
    rw [List.cons_append, recordsWithin, if_pos (by omega), List.cons_prefix_cons]
    exact ⟨rfl, ih (List.prefix_append _ _) (by omega)⟩

/-- The first bytes of a segment keep the records wholly among them. -/
theorem keeps_of_prefix {intended : List Append} {bytes : List UInt8}
    (haligned : ∀ call ∈ intended, call.Aligned) (hfirst : bytes <+: config.segmentBytes intended) :
    Keeps config (recordsBefore intended bytes.length) (.file bytes) := by
  rcases Nat.lt_or_ge bytes.length segmentHeaderSize with hshort | hheader
  · have hnone : recordsBefore intended bytes.length = [] := by
      unfold recordsBefore
      rw [Nat.sub_eq_zero_of_le hshort.le]
      cases intended with
      | nil => rfl
      | cons call intended =>
        have hpos := (frameLength_bounds call.payload.length).1
        rw [recordsWithin, if_neg (by unfold recordHeaderSize at hpos; omega)]
    rw [hnone]
    refine .header ?_ hshort
    refine List.prefix_of_prefix_length_le hfirst (List.prefix_append _ _) ?_
    rw [WalSegmentHeader.toBytes_length]
    exact hshort.le
  · have hbytes : bytes = (config.segmentBytes intended).take bytes.length :=
      List.prefix_iff_eq_take.mp hfirst
    have hcut : bytes.length ≤ boundaryAfter intended := by
      have hle := hfirst.length_le
      rwa [WalWriterConfig.segmentBytes_length] at hle
    have hcases := recordsBefore_cases hheader hcut
    generalize recordsBefore intended bytes.length = kept at hcases ⊢
    rcases hcases with ⟨heq, hwhole⟩ | ⟨call, later, hcalls, hlt, hnext⟩
    · have hfile : bytes = config.segmentBytes kept ++ [] := by
        obtain ⟨later, rfl⟩ := hwhole
        rw [hbytes, WalWriterConfig.segmentBytes_append, List.append_nil]
        refine List.take_left' ?_
        rw [WalWriterConfig.segmentBytes_length]
        exact heq.symm
      rw [hfile]
      exact .records (fun call hcall => (haligned call (hwhole.subset hcall)).1) (.done rfl)
        (.inl ⟨rfl, rfl⟩)
    · obtain ⟨hfits, haligned⟩ := And.intro
        (fun call hcall => (haligned call (hcalls ▸ List.mem_append_left _ hcall)).1)
        (haligned call (by rw [hcalls]; simp))
      rw [hbytes, take_segmentBytes hcalls hlt.le hnext]
      exact .records hfits (.stop (frontAt_torn haligned.1 (Nat.sub_pos_of_lt hlt)
        (haligned.size_lt hnext)))
        (.inr rfl)

/-- What a writer underway leaves on the path: the records from before, its own up to the last
committed one at least, and no more than one that it has not acknowledged. -/
theorem WalSegmentWriter.Underway.keeps {before appends : List Append}
    {opened writer : WalSegmentWriter} {results : List WriterResult}
    (h : Underway config before opened appends results writer)
    (hbefore : ∀ call ∈ before, call.Aligned) (happends : ∀ call ∈ appends, call.Aligned)
    (killed : Bool) :
    ∃ kept, Keeps config (before ++ kept) (if killed then writer.file.entry else writer.destroy) ∧
      kept <+: appends ∧ (publishedPositions results).length ≤ kept.length ∧
      kept.length ≤ (appendedPositions results).length + 1 := by
  obtain ⟨bytes, hentry, hfirst, hvisible⟩ := h.leaves killed
  have hcount := h.count
  have hpublished := (published_isPrefix results).length_le
  have htake := List.take_subset ((appendedPositions results).length + 1) appends
  generalize hattempted : appends.take ((appendedPositions results).length + 1) = attempted
    at hfirst htake
  have haligned : ∀ call ∈ before ++ attempted, call.Aligned := fun call hcall =>
    (List.mem_append.mp hcall).elim (hbefore call) fun h => happends call (htake h)
  have hshorter : appends.take (publishedPositions results).length <+: attempted := by
    rw [← hattempted]
    exact List.take_prefix_take_left (by omega)
  have hcommitted := prefix_recordsWithin ((List.prefix_append_right_inj before).mpr hshorter)
    hvisible
  obtain ⟨later, hsplit, -⟩ := recordsWithin_split (before ++ attempted)
    (bytes.length - segmentHeaderSize)
  have hkeeps := keeps_of_prefix haligned hfirst
  unfold recordsBefore at hkeeps
  obtain ⟨kept, hkept⟩ := (List.prefix_append before _).trans hcommitted
  rw [← hkept] at hkeeps hcommitted hsplit
  have hwithin : kept <+: attempted := by
    rw [List.append_assoc] at hsplit
    exact ⟨later, (List.append_cancel_left hsplit).symm⟩
  rw [hentry]
  refine ⟨kept, hkeeps, ?_, ?_, ?_⟩
  · rw [← hattempted] at hwithin
    exact hwithin.trans (List.take_prefix _ _)
  · have hle := ((List.prefix_append_right_inj before).mp hcommitted).length_le
    rwa [List.length_take, min_eq_left (by omega)] at hle
  · have hle := hwithin.length_le
    rw [← hattempted, List.length_take] at hle
    omega

/-! ## Opening -/

namespace WalSegmentWriter

/-- A writer that could not be opened, and whose path is as it was. -/
structure Refused (entry : FileEntry) (writer : WalSegmentWriter) : Prop where
  writerError : writer.writerError ≠ .none
  entry : writer.file.entry = entry
  isOpen : writer.file.isOpen = false

/-- Opening a path without bytes: the segment header is written, or the file is not opened. -/
theorem create_fresh (config : WalWriterConfig) {entry : FileEntry}
    (hfresh : entry = .absent ∨ entry = .file []) (outcomes : List SinkOutcome) :
    let opened := create config { entry := entry, outcomes := outcomes }
    Refused entry opened ∨ Underway config [] opened [] [] opened := by
  intro opened
  have hdirectory : entry ≠ .directory := by
    rcases hfresh with rfl | rfl <;> simp
  have hempty : entry.bytes?.getD [] = [] := by
    rcases hfresh with rfl | rfl <;> rfl
  generalize hfile : (OutputStream.openAppend { entry := entry, outcomes := outcomes }).write
    config.segmentHeader.toBytes = file
  have hcreate : opened = { config.writer with
      file := file
      writerError := if file.failed then .cannotWriteFile else .none } := by
    rw [← hfile]
    change create config _ = _
    unfold create
    rw [if_neg hdirectory]
    simp only [hempty, if_true, ne_eq, not_true, if_false]
    split
    next hfailed =>
      have hwrite : ((OutputStream.openAppend { entry := entry, outcomes := outcomes }).write
        config.segmentHeader.toBytes).failed = true := hfailed
      rw [if_pos hwrite]
      rfl
    next hok =>
      have hwrite : ¬ ((OutputStream.openAppend { entry := entry, outcomes := outcomes }).write
        config.segmentHeader.toBytes).failed = true := hok
      rw [if_neg hwrite]
      rfl
  have hheader : [] ++ config.segmentHeader.toBytes = config.segmentBytes [] := by
    rw [WalWriterConfig.segmentBytes, WalWriterConfig.framesBytes, List.nil_append,
      List.append_nil]
  have hopened : file.failed = true ∧ file.isOpen = false ∧ file.entry = entry ∨
      file.Intends (config.segmentBytes []) := by
    rw [← hfile, ← hheader]
    rcases hfresh with rfl | rfl
    · rcases OutputStream.openAppend_absent outcomes with ⟨hfailed, hopen, hentry⟩ | hopen
      · obtain ⟨hfailed', hopen', hentry'⟩ :=
          OutputStream.write_of_failed hfailed config.segmentHeader.toBytes
        exact .inl ⟨hfailed', hopen'.trans hopen, hentry'.trans hentry⟩
      · exact .inr (hopen.write _)
    · exact .inr ((OutputStream.intends_openAppend [] outcomes).write _)
  rw [hcreate]
  rcases hopened with ⟨hfailed, hopen, hentry⟩ | hintends
  · refine .inl ⟨?_, hentry, hopen⟩
    dsimp only
    rw [if_pos hfailed]
    exact WalError.noConfusion
  · have hnext : config.firstSequence = config.firstSequence + .ofNat ([] : List Append).length :=
      (UInt64.add_zero _).symm
    refine .inr ⟨.start ⟨rfl, rfl, rfl⟩, rfl, rfl, hnext, le_rfl, fun _ => rfl, fun hne => ?_,
      hintends, fun bytes _ => Nat.zero_le _⟩
    by_contra hok
    exact hne (if_neg hok)

/-- Opening a file that ends inside the segment header. -/
theorem refused_create_header {bytes : List UInt8} (hne : bytes ≠ [])
    (hshort : bytes.length < segmentHeaderSize) (config : WalWriterConfig)
    (outcomes : List SinkOutcome) :
    Refused (.file bytes) (create config { entry := .file bytes, outcomes := outcomes }) := by
  have hread : (readExistingSegmentHeader (.file bytes)).1 = .invalidSegmentHeader := by
    have hread : (InputStream.reading 0 0).read bytes segmentHeaderSize = _ :=
      InputStream.read_of_lt (Nat.zero_le _) (Nat.lt_of_lt_of_eq hshort (Nat.zero_add _).symm)
    unfold readExistingSegmentHeader
    change (if (InputStream.read bytes segmentHeaderSize (.reading 0 0)).2.gcount ≠ _ then
      (WalError.invalidSegmentHeader, _) else _).1 = _
    rw [hread, if_pos (by rw [Nat.sub_zero]; exact hshort.ne)]
  have hprepared : ∀ writer : WalSegmentWriter, writer.file.entry = .file bytes →
      writer.prepareExistingSegment config.firstSequence [] = (.invalidSegmentHeader, writer) := by
    intro writer hentry
    unfold prepareExistingSegment
    simp only [hentry, hread]
    rw [if_pos (by decide)]
  have hcreate : create config { entry := .file bytes, outcomes := outcomes } =
      { config.writer with
        file := { entry := .file bytes, outcomes := outcomes }
        writerError := .invalidSegmentHeader } := by
    have hnonempty : ¬ (FileEntry.file bytes).bytes?.getD [] = [] := hne
    unfold create
    rw [if_neg FileEntry.noConfusion]
    simp only [hnonempty, if_false]
    rw [hprepared _ rfl, if_pos (by exact WalError.noConfusion)]
    rfl
  rw [hcreate]
  exact ⟨WalError.noConfusion, rfl, rfl⟩

/-- Opening a segment with records and possibly a part of one more. -/
theorem underway_create_file (hvalid : config.Valid) {kept : List Append}
    (hfits : ∀ call ∈ kept, call.Fits)
    (hwrap : config.firstSequence.toNat + kept.length ≤ 2 ^ 64) {torn : List UInt8}
    {ending : Option WalError}
    (htorn : Frames config.segmentHeader (config.firstSequence + .ofNat kept.length) torn [] 0
      ending)
    (hending : ending = none ∧ torn = [] ∨ ending = some .incompleteTrailingRecord)
    (outcomes : List SinkOutcome) :
    let opened := create config
      { entry := .file (config.segmentBytes kept ++ torn), outcomes := outcomes }
    Underway config kept opened [] [] opened := by
  intro opened
  have hprepared := prepareExistingSegment_eq hvalid hfits htorn hending outcomes
  have hnonempty : config.segmentBytes kept ++ torn ≠ [] := by
    intro hempty
    have hlength := congrArg List.length hempty
    rw [List.length_append, WalWriterConfig.segmentBytes_length, segmentHeaderSize,
      List.length_nil] at hlength
    omega
  have hcreate : opened =
      { config.writer with
        file := OutputStream.openAppend
          { entry := .file (config.segmentBytes kept), outcomes := outcomes }
        lastPosition := lastOf {} (config.views config.firstSequence kept)
        lastCommittedPosition := lastOf {} (config.views config.firstSequence kept)
        nextSequence := config.firstSequence + .ofNat kept.length } := by
    dsimp only at hprepared
    rw [nextSequence_of_last hvalid hwrap] at hprepared
    change create config _ = _
    unfold create
    rw [if_neg FileEntry.noConfusion]
    simp only [FileEntry.bytes?, Option.getD_some, hnonempty, if_false]
    unfold WalWriterConfig.writer at hprepared ⊢
    rw [hprepared]
    rfl
  have hintends := OutputStream.intends_openAppend (config.segmentBytes kept) outcomes
  rw [hcreate]
  refine ⟨.start ⟨rfl, rfl, rfl⟩, rfl, rfl, rfl, le_rfl, fun _ => rfl, fun hne => absurd rfl hne,
    ?_, fun bytes hentry => ?_⟩
  · rw [List.take_nil, List.append_nil]
    exact hintends
  · obtain ⟨hsame, -⟩ := OutputStream.openAppend_of_file
      (s := { entry := .file (config.segmentBytes kept), outcomes := outcomes }) rfl
    obtain rfl : config.segmentBytes kept = bytes := FileEntry.file.inj (hsame.symm.trans hentry)
    rw [List.take_nil, List.append_nil, WalWriterConfig.segmentBytes_length]
    omega

/-- A writer is opened on what a process has left, or it is refused. -/
theorem create_of_keeps {kept : List Append} {entry : FileEntry} (h : Keeps config kept entry)
    (hvalid : config.Valid) (hwrap : config.firstSequence.toNat + kept.length ≤ 2 ^ 64)
    (outcomes : List SinkOutcome) :
    let opened := create config { entry := entry, outcomes := outcomes }
    Refused entry opened ∨ Underway config kept opened [] [] opened := by
  cases h with
  | absent => exact create_fresh config (.inl rfl) outcomes
  | @header bytes hfirst hshort =>
    rcases eq_or_ne bytes [] with rfl | hne
    · exact create_fresh config (.inr rfl) outcomes
    · exact .inl (refused_create_header hne hshort config outcomes)
  | records hfits htorn hending =>
    exact .inr (underway_create_file hvalid hfits hwrap htorn hending outcomes)

/-- A writer that was refused answers every call with nothing and leaves its path as it is. -/
theorem Refused.run {entry : FileEntry} {opened : WalSegmentWriter} (h : Refused entry opened)
    (calls : List WriterCall) :
    appendedPositions (machine.run opened calls).1 = [] ∧
      Refused entry (machine.run opened calls).2 := by
  refine machine.run_induction
    (P := fun results writer => appendedPositions results = [] ∧ Refused entry writer)
    ⟨rfl, h⟩ (fun results writer c ⟨hnothing, hrefused⟩ => ?_) calls
  obtain ⟨hsame, hfile, happended, -⟩ := WalSegmentWriter.call_of_error hrefused.writerError c
  refine ⟨?_, hsame.trans_ne hrefused.writerError, ?_, ?_⟩
  · change appendedPositions (results ++ [(writer.call c).1]) = []
    rw [appendedPositions_concat, hnothing, happended]
    rfl
  · change (writer.call c).2.file.entry = entry
    rw [hfile, hrefused.entry]
  · change (writer.call c).2.file.isOpen = false
    rw [hfile, hrefused.isOpen]

theorem Refused.leaves {entry : FileEntry} {writer : WalSegmentWriter} (h : Refused entry writer)
    (killed : Bool) : (if killed then writer.file.entry else writer.destroy) = entry := by
  unfold destroy OutputStream.close
  rw [h.isOpen, h.entry]
  simp

end WalSegmentWriter

/-! ## Processes -/

/-- What is kept of one process that was called to append these records and gave these
results: its first records, all that were committed and at most one that was not acknowledged,
with the numbers behind those that were kept before. -/
structure KeptOf (config : WalWriterConfig) (before : ℕ) (appends : List Append)
    (results : List WriterResult) (kept : List Append) : Prop where
  first : kept <+: appends
  /-- Nothing that was committed is lost. -/
  committed : (publishedPositions results).length ≤ kept.length
  /-- Nothing is there that was not asked for. -/
  acknowledged : kept.length ≤ (appendedPositions results).length + 1
  /-- The positions that were handed out are those under which the records are found. -/
  positions : appendedPositions results = positionsFrom config.streamId config.epoch
    (config.firstSequence + .ofNat before) (appendedPositions results).length

/-- One process. -/
theorem Keeps.step {before : List Append} {entry : FileEntry} (h : Keeps config before entry)
    (hvalid : config.Valid) (hbefore : ∀ call ∈ before, call.Aligned)
    (hwrap : config.firstSequence.toNat + before.length ≤ 2 ^ 64) (process : ProcessRun)
    (haligned : ∀ call ∈ appendsOf process.calls, call.Aligned) :
    ∃ results own, ((processMachine config).step entry process).1 = [results] ∧
      KeptOf config before.length (appendsOf process.calls) results own ∧
      Keeps config (before ++ own) ((processMachine config).step entry process).2 := by
  have hopened := WalSegmentWriter.create_of_keeps h hvalid hwrap process.outcomes
  unfold processMachine
  dsimp only at hopened ⊢
  generalize WalSegmentWriter.create config { entry := entry, outcomes := process.outcomes } =
    opened at hopened ⊢
  rcases hopened with hrefused | hunderway
  · obtain ⟨happended, hafter⟩ := hrefused.run process.calls
    have hpublished := (published_isPrefix
      (WalSegmentWriter.machine.run opened process.calls).1).length_le
    rw [happended] at hpublished
    refine ⟨_, [], rfl, ⟨List.nil_prefix, hpublished, Nat.zero_le _, ?_⟩, ?_⟩
    · rw [happended]
      rfl
    · rw [hafter.leaves, List.append_nil]
      exact h
  · have hran := hunderway.run fun call hcall => (haligned call hcall).1
    obtain ⟨own, hkeeps, hfirst, hcommitted, hacknowledged⟩ :=
      hran.keeps hbefore haligned process.dies
    refine ⟨_, own, rfl, ⟨hfirst, hcommitted, hacknowledged, ?_⟩, hkeeps⟩
    rw [← hran.streamId, ← hran.epoch, ← hran.nextSequence]
    exact hran.protocol.consecutive

end Wal
