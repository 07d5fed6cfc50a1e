import MatchingEngine.Wal.Sessions
import Mathlib.Order.Bounds.Basic

/-!
# Recovering a torn segment

A crash leaves a prefix of the file of a segment. `Recovers` says what recovery should
make of it: the scan finds the last record boundary before the cut, and a writer that is
opened on the prefix goes on there. It does so unless the cut is in the padding behind a
payload, where skipping runs into the end of the file without a failure.
-/

namespace Wal

open Framing

/-- The offset is behind the header and a number of complete records. -/
def IsRecordBoundary (calls : List Append) (offset : ℕ) : Prop :=
  ∃ earlier, earlier <+: calls ∧ offset = boundaryAfter earlier

/-- The records whose frames fit into the room. -/
def recordsWithin : ℕ → List Append → List Append
  | _, [] => []
  | room, call :: calls =>
    if frameLength call.payload.length ≤ room
    then call :: recordsWithin (room - frameLength call.payload.length) calls
    else []

/-- The records wholly before the cut. -/
def recordsBefore (calls : List Append) (cut : ℕ) : List Append :=
  recordsWithin (cut - segmentHeaderSize) calls

/-- Recovery after a crash that left the file cut off at the offset. -/
structure Recovers (config : WalWriterConfig) (calls : List Append) (file : List UInt8)
    (cut : ℕ) : Prop where
  /-- The scan is ok exactly at a record boundary. -/
  ok_iff : (WalSegmentScanner.scan (.file file)).ok = true ↔ IsRecordBoundary calls cut
  /-- Elsewhere it reports a cut-off record. -/
  torn : ¬ IsRecordBoundary calls cut →
    (WalSegmentScanner.scan (.file file)).error = .incompleteTrailingRecord
  /-- It finds the last record boundary at or before the cut. -/
  offset : IsGreatest {offset | IsRecordBoundary calls offset ∧ offset ≤ cut}
    (WalSegmentScanner.scan (.file file)).lastValidOffset
  /-- After one more session the records wholly before the cut and the new records are
  read back with consecutive numbers. -/
  reopened : ∀ more outcomes, (∀ call ∈ more, call.Fits) →
    config.firstSequence.toNat + (recordsBefore calls cut ++ more).length ≤ 2 ^ 64 →
    (∀ outcome ∈ outcomes, outcome.fails = false) →
    ∃ last, WalSegmentReader.readAll
        (WalSegmentWriter.session config more outcomes (.file file)) =
      some { records := config.records config.firstSequence (recordsBefore calls cut ++ more)
             final := { status := .endOfLog, error := .endOfLog, position := last }
             lastPosition := last }

/-! ## Boundaries -/

/-- What is before the cut: whole records, and possibly a part of the next one. -/
theorem recordsWithin_split (calls : List Append) (room : ℕ) :
    ∃ later, calls = recordsWithin room calls ++ later ∧
      WalWriterConfig.framesLength (recordsWithin room calls) ≤ room ∧
      ∀ call rest, later = call :: rest →
        room < WalWriterConfig.framesLength (recordsWithin room calls) +
          frameLength call.payload.length := by
  induction calls generalizing room with
  | nil => exact ⟨[], rfl, Nat.zero_le _, fun _ _ h => by cases h⟩
  | cons call calls ih =>
    unfold recordsWithin
    by_cases hroom : frameLength call.payload.length ≤ room
    · obtain ⟨later, hcalls, hlength, hnext⟩ := ih (room - frameLength call.payload.length)
      rw [if_pos hroom]
      refine ⟨later, by rw [List.cons_append, ← hcalls], ?_, fun next rest hlater => ?_⟩
      · rw [WalWriterConfig.framesLength, List.map_cons, List.sum_cons]
        unfold WalWriterConfig.framesLength at hlength
        omega
      · have hlast := hnext next rest hlater
        rw [WalWriterConfig.framesLength, List.map_cons, List.sum_cons]
        unfold WalWriterConfig.framesLength at hlast
        omega
    · rw [if_neg hroom]
      refine ⟨call :: calls, rfl, Nat.zero_le _, fun next rest hlater => ?_⟩
      cases hlater
      change room < 0 + _
      omega

/-- The cut seen from the records wholly before it: it is behind them, or inside the
next record. -/
theorem recordsBefore_cases {calls : List Append} {cut : ℕ} (hheader : segmentHeaderSize ≤ cut)
    (hcut : cut ≤ boundaryAfter calls) :
    (cut = boundaryAfter (recordsBefore calls cut) ∧ recordsBefore calls cut <+: calls) ∨
      ∃ call later, calls = recordsBefore calls cut ++ call :: later ∧
        boundaryAfter (recordsBefore calls cut) < cut ∧
        cut < boundaryAfter (recordsBefore calls cut ++ [call]) := by
  obtain ⟨later, hcalls, hlength, hnext⟩ := recordsWithin_split calls (cut - segmentHeaderSize)
  have hle : boundaryAfter (recordsBefore calls cut) ≤ cut := by
    unfold boundaryAfter recordsBefore
    omega
  rcases hle.lt_or_eq with hlt | heq
  · cases later with
    | nil =>
      rw [List.append_nil] at hcalls
      have hwhole : recordsBefore calls cut = calls := hcalls.symm
      rw [hwhole] at hlt
      exact absurd hcut (Nat.not_le.mpr hlt)
    | cons call later =>
      refine .inr ⟨call, later, hcalls, hlt, ?_⟩
      have hlast := hnext call later rfl
      rw [boundaryAfter_concat]
      unfold boundaryAfter recordsBefore
      omega
  · exact .inl ⟨heq.symm, ⟨later, hcalls.symm⟩⟩

/-- No record boundary is between the records before the cut and the cut. -/
theorem boundary_le {calls earlier later : List Append} {call : Append} {cut offset : ℕ}
    (hcalls : calls = earlier ++ call :: later) (hcut : cut < boundaryAfter (earlier ++ [call]))
    (hboundary : IsRecordBoundary calls offset) (hoffset : offset ≤ cut) :
    offset ≤ boundaryAfter earlier := by
  obtain ⟨before, hprefix, rfl⟩ := hboundary
  have hnext : earlier ++ [call] <+: calls := ⟨later, by rw [hcalls]; simp⟩
  rcases List.prefix_or_prefix_of_prefix hprefix hnext with hle | hge
  · rcases List.prefix_concat_iff.mp hle with rfl | hle
    · omega
    · exact boundaryAfter_mono hle
  · have hmono := boundaryAfter_mono hge
    omega

/-! ## The bytes that are left -/

variable {config : WalWriterConfig} {calls earlier later : List Append} {call : Append}
  {cut : ℕ} {sequence : UInt64}

/-- A prefix of a segment is a shorter segment and a prefix of the next frame. -/
theorem take_segmentBytes (hcalls : calls = earlier ++ call :: later)
    (hcut : boundaryAfter earlier ≤ cut) (hnext : cut < boundaryAfter (earlier ++ [call])) :
    (config.segmentBytes calls).take cut = config.segmentBytes earlier ++
      (config.frameBytes (config.firstSequence + .ofNat earlier.length) call).take
        (cut - boundaryAfter earlier) := by
  have hlength : (config.segmentBytes earlier).length = boundaryAfter earlier :=
    WalWriterConfig.segmentBytes_length _ _
  rw [boundaryAfter_concat] at hnext
  rw [hcalls, WalWriterConfig.segmentBytes_split, List.take_append, hlength,
    List.take_of_length_le (by rw [hlength]; exact hcut),
    List.take_append_of_le_length (by rw [WalWriterConfig.frameBytes_length]; omega)]

/-- A frame that is cut off before the end of its payload is a cut-off record. -/
theorem frontAt_torn (hfits : call.Fits) {size : ℕ} (hpos : 0 < size)
    (hsize : size < recordHeaderSize + call.payload.length) :
    frontAt config.segmentHeader sequence ((config.frameBytes sequence call).take size) =
      .stop .incompleteTrailingRecord := by
  have hheader := (config.recordHeader sequence call).toBytes_length
  have hbounds := frameLength_bounds call.payload.length
  have hlength : ((config.frameBytes sequence call).take size).length = size := by
    rw [List.length_take, WalWriterConfig.frameBytes_length]
    omega
  have hne : (config.frameBytes sequence call).take size ≠ [] := by
    intro hempty
    rw [hempty, List.length_nil] at hlength
    omega
  have hpayload : (config.recordHeader sequence call).payloadLength.toNat =
      call.payload.length := hfits.payloadLength
  unfold frontAt
  rw [if_neg hne, hlength]
  by_cases hshort : size < recordHeaderSize
  · rw [if_pos hshort]
  · have htake : ((config.frameBytes sequence call).take size).take recordHeaderSize =
        (config.recordHeader sequence call).toBytes := by
      rw [List.take_take, min_eq_left (by omega), WalWriterConfig.frameBytes,
        List.take_left' hheader]
    rw [if_neg hshort]
    simp only [htake, WalRecordHeader.ofBytes_toBytes,
      WalWriterConfig.recordHeader_accepted hfits, hpayload]
    rw [if_pos hsize]

/-- A frame that is cut off inside its padding is taken for a complete record. -/
theorem frames_insidePadding (hfits : call.Fits) {size : ℕ}
    (hsize : recordHeaderSize + call.payload.length ≤ size)
    (hlt : size < frameLength call.payload.length) :
    Frames config.segmentHeader sequence ((config.frameBytes sequence call).take size)
      [config.view sequence call] (frameLength call.payload.length + 0) none := by
  have hheader := (config.recordHeader sequence call).toBytes_length
  have htake : (config.frameBytes sequence call).take size =
      (config.recordHeader sequence call).toBytes ++ (call.payload ++
        (List.replicate (frameLength call.payload.length -
          (recordHeaderSize + call.payload.length)) 0).take
            (size - recordHeaderSize - call.payload.length)) := by
    rw [WalWriterConfig.frameBytes, List.take_append, List.take_append, hheader,
      List.take_of_length_le (by rw [hheader]; omega), List.take_of_length_le (by omega)]
  have hlength : ((config.frameBytes sequence call).take size).length = size := by
    rw [List.length_take, WalWriterConfig.frameBytes_length]
    omega
  have hdone : ((config.frameBytes sequence call).take size).drop
      (frameLength call.payload.length) = [] :=
    List.drop_eq_nil_of_le (by omega)
  have hfront : frontAt config.segmentHeader sequence
      ((config.frameBytes sequence call).take size) =
      .item (config.view sequence call) (sequence + 1) (frameLength call.payload.length) := by
    rw [htake]
    exact WalWriterConfig.frontAt_frame hfits _
  refine .item hfront ?_
  rw [hdone]
  exact .done rfl

/-- The scan of a segment with something behind its records. -/
theorem scan_append (hvalid : config.Valid) (hfits : ∀ call ∈ earlier, call.Fits)
    {rest : List UInt8} {views : List WalRecordView} {size : ℕ} {ending : Option WalError}
    (hrest : Frames config.segmentHeader (config.firstSequence + .ofNat earlier.length) rest
      views size ending) :
    WalSegmentScanner.scan (.file (config.segmentBytes earlier ++ rest)) =
      WalSegmentScanner.endAt ending
        (WalSegmentScanner.offsetAt (config.segmentBytes earlier ++ rest)
          (boundaryAfter earlier + size))
        { ok := true
          lastValidPosition := lastOf {} (config.views config.firstSequence earlier ++ views)
          lastValidOffset := segmentHeaderSize } := by
  obtain ⟨hsegment, -, hframes⟩ := WalSegmentWriter.segment_append hvalid hfits hrest
  rw [WalSegmentScanner.scan_of_frames hsegment hframes, boundaryAfter, Nat.add_assoc]

/-! ## Recovery -/

/-- Recovery from records with nothing, or a cut-off record, behind them. -/
theorem recovers_of_ending (hvalid : config.Valid)
    (hfits : ∀ call ∈ recordsBefore calls cut, call.Fits)
    (hwrap : config.firstSequence.toNat + (recordsBefore calls cut).length ≤ 2 ^ 64)
    {torn : List UInt8} {ending : Option WalError}
    (htorn : Frames config.segmentHeader
      (config.firstSequence + .ofNat (recordsBefore calls cut).length) torn [] 0 ending)
    (hending : ending = none ∧ torn = [] ∨ ending = some .incompleteTrailingRecord)
    (hboundary : ending = none ↔ IsRecordBoundary calls cut)
    (hgreatest : IsGreatest {offset | IsRecordBoundary calls offset ∧ offset ≤ cut}
      (boundaryAfter (recordsBefore calls cut))) :
    Recovers config calls (config.segmentBytes (recordsBefore calls cut) ++ torn) cut := by
  have hscan := scan_append hvalid hfits htorn
  have hoffset : WalSegmentScanner.offsetAt
      (config.segmentBytes (recordsBefore calls cut) ++ torn)
      (boundaryAfter (recordsBefore calls cut) + 0) =
      boundaryAfter (recordsBefore calls cut) := by
    rw [WalSegmentScanner.offsetAt, if_pos, Nat.add_zero]
    rw [List.length_append, WalWriterConfig.segmentBytes_length, boundaryAfter]
    omega
  rw [hoffset] at hscan
  have hreopened : ∀ more outcomes, (∀ call ∈ more, call.Fits) →
      config.firstSequence.toNat + (recordsBefore calls cut ++ more).length ≤ 2 ^ 64 →
      (∀ outcome ∈ outcomes, outcome.fails = false) →
      ∃ last, WalSegmentReader.readAll (WalSegmentWriter.session config more outcomes
          (.file (config.segmentBytes (recordsBefore calls cut) ++ torn))) =
        some { records := config.records config.firstSequence (recordsBefore calls cut ++ more)
               final := { status := .endOfLog, error := .endOfLog, position := last }
               lastPosition := last } := by
    intro more outcomes hmore hnumbers houtcomes
    rw [WalSegmentWriter.session_file hvalid hfits hwrap htorn hending hmore houtcomes]
    refine readAll_segment hvalid (fun call hmem => ?_)
      (WalSegmentReader.countsOn_of_le hvalid.2.2 hnumbers)
    exact (List.mem_append.mp hmem).elim (hfits call) (hmore call)
  rcases hending with ⟨rfl, rfl⟩ | rfl
  · refine ⟨?_, fun hnot => absurd (hboundary.mp rfl) hnot, ?_, hreopened⟩
    · rw [hscan]
      exact iff_of_true rfl (hboundary.mp rfl)
    · rw [hscan]
      exact hgreatest
  · have hnot : ¬ IsRecordBoundary calls cut := fun h => by cases hboundary.mpr h
    refine ⟨?_, fun _ => ?_, ?_, hreopened⟩
    · rw [hscan]
      exact iff_of_false Bool.false_ne_true hnot
    · rw [hscan]
      rfl
    · rw [hscan]
      exact hgreatest

/-- In the padding of a record the scan is ok although no record ends there. -/
theorem not_recovers_of_insidePadding (hvalid : config.Valid)
    (hfits : ∀ call ∈ calls, call.Fits) (hpadding : InsidePadding calls cut) :
    ¬ Recovers config calls ((config.segmentBytes calls).take cut) cut := by
  obtain ⟨earlier, call, later, hcalls, hpayload, hnext⟩ := hpadding
  have hcut : boundaryAfter earlier < cut := by
    unfold recordHeaderSize at hpayload
    omega
  have hcall : call.Fits := hfits call (by rw [hcalls]; simp)
  have hearlier : ∀ c ∈ earlier, c.Fits := fun c hc => hfits c (by rw [hcalls]; simp [hc])
  have hnot : ¬ IsRecordBoundary calls cut := by
    intro hboundary
    have hle := boundary_le hcalls hnext hboundary le_rfl
    omega
  have hsize : cut - boundaryAfter earlier < frameLength call.payload.length := by
    rw [boundaryAfter_concat] at hnext
    omega
  intro hrecovers
  have hok := hrecovers.ok_iff
  rw [take_segmentBytes hcalls hcut.le hnext,
    scan_append hvalid hearlier (frames_insidePadding hcall (by omega) hsize)] at hok
  exact hnot (hok.mp rfl)

/-- Outside the padding of records recovery works. -/
theorem recovers_of_not_insidePadding (hvalid : config.Valid)
    (hfits : ∀ call ∈ calls, call.Fits)
    (hwrap : config.firstSequence.toNat + calls.length ≤ 2 ^ 64)
    (hheader : segmentHeaderSize ≤ cut) (hcut : cut ≤ boundaryAfter calls)
    (hpadding : ¬ InsidePadding calls cut) :
    Recovers config calls ((config.segmentBytes calls).take cut) cut := by
  have hsub : ∀ call ∈ recordsBefore calls cut, call ∈ calls := by
    intro call hmem
    obtain ⟨later, hcalls, -⟩ := recordsWithin_split calls (cut - segmentHeaderSize)
    rw [hcalls]
    exact List.mem_append_left _ hmem
  have hlength : (recordsBefore calls cut).length ≤ calls.length := by
    obtain ⟨later, hcalls, -⟩ := recordsWithin_split calls (cut - segmentHeaderSize)
    have hsum := congrArg List.length hcalls
    rw [List.length_append] at hsum
    unfold recordsBefore
    omega
  have hbefore : ∀ call ∈ recordsBefore calls cut, call.Fits := fun call hmem =>
    hfits call (hsub call hmem)
  have hnumbers : config.firstSequence.toNat + (recordsBefore calls cut).length ≤ 2 ^ 64 := by
    omega
  rcases recordsBefore_cases hheader hcut with ⟨heq, hprefix⟩ | ⟨call, later, hcalls, hlt, hnext⟩
  · have hfile : (config.segmentBytes calls).take cut =
        config.segmentBytes (recordsBefore calls cut) ++ [] := by
      obtain ⟨later, hcalls⟩ := hprefix
      have hsplit : config.segmentBytes calls = config.segmentBytes (recordsBefore calls cut) ++
          config.framesBytes (config.firstSequence + .ofNat (recordsBefore calls cut).length)
            later := by
        conv_lhs => rw [← hcalls]
        rw [WalWriterConfig.segmentBytes, WalWriterConfig.framesBytes_append,
          WalWriterConfig.segmentBytes, List.append_assoc]
      rw [hsplit, List.append_nil]
      exact List.take_left' ((WalWriterConfig.segmentBytes_length _ _).trans heq.symm)
    rw [hfile]
    refine recovers_of_ending hvalid hbefore hnumbers (.done rfl) (.inl ⟨rfl, rfl⟩)
      (iff_of_true rfl ⟨_, hprefix, heq⟩) ⟨⟨⟨_, hprefix, rfl⟩, heq.ge⟩, fun offset h => ?_⟩
    exact h.2.trans heq.le
  · have hshort : cut - boundaryAfter (recordsBefore calls cut) <
        recordHeaderSize + call.payload.length := by
      by_contra hlong
      exact hpadding ⟨_, call, later, hcalls, by omega, hnext⟩
    have hcall : call.Fits := hfits call (by rw [hcalls]; simp)
    have hle : ∀ offset, IsRecordBoundary calls offset → offset ≤ cut →
        offset ≤ boundaryAfter (recordsBefore calls cut) :=
      fun offset => boundary_le hcalls hnext
    have hprefix : recordsBefore calls cut <+: calls := ⟨call :: later, hcalls.symm⟩
    rw [take_segmentBytes hcalls hlt.le hnext]
    refine recovers_of_ending hvalid hbefore hnumbers
      (.stop (frontAt_torn hcall (by omega) hshort)) (.inr rfl)
      (iff_of_false (by simp) fun hboundary => ?_)
      ⟨⟨⟨_, hprefix, rfl⟩, hlt.le⟩, fun offset h => hle offset h.1 h.2⟩
    exact absurd (hle cut hboundary le_rfl) (Nat.not_le.mpr hlt)

/-- Recovery of a segment that was cut off behind its header works exactly when the cut
is not inside the padding of a record. -/
theorem recovers_iff {sessions : List Session} (hwritable : Writable config sessions)
    {file : List UInt8} (hfile : runSessions config sessions .absent = .file file)
    (hheader : segmentHeaderSize ≤ cut) (hcut : cut ≤ file.length) :
    Recovers config (sessions.flatMap Session.calls) (file.take cut) cut ↔
      ¬ InsidePadding (sessions.flatMap Session.calls) cut := by
  have hne : sessions ≠ [] := by
    rintro rfl
    cases hfile
  have hsegment := hwritable.runSessions hne
  rw [hfile] at hsegment
  cases hsegment
  rw [WalWriterConfig.segmentBytes_length] at hcut
  constructor
  · intro hrecovers hpadding
    exact not_recovers_of_insidePadding hwritable.valid hwritable.fits_calls hpadding hrecovers
  · exact recovers_of_not_insidePadding hwritable.valid hwritable.fits_calls hwritable.numbers
      hheader hcut

/-- Two records, the second of which is cut off in its payload: the first one is kept. -/
theorem recovers_in_payload :
    let calls : List Append :=
      [{ recordType := 200, payload := [1, 2, 3] }, { recordType := 300, payload := [4, 5] }]
    ∃ file, runSessions { streamId := 7, epoch := 3 } [{ calls := calls }] .absent = .file file ∧
      Recovers { streamId := 7, epoch := 3 } calls (file.take 161) 161 := by
  intro calls
  have hwritable : Writable { streamId := 7, epoch := 3 } [{ calls := calls }] :=
    ⟨⟨by decide, by decide, by decide⟩, by decide, by decide, by decide⟩
  have hfile := hwritable.runSessions (by decide)
  refine ⟨_, hfile, (recovers_iff hwritable hfile (by decide) ?_).mpr ?_⟩
  · rw [WalWriterConfig.segmentBytes_length]
    decide
  · rintro ⟨earlier, call, later, hcalls, hpayload, hnext⟩
    match earlier, hcalls with
    | [], hcalls =>
      obtain ⟨rfl, -⟩ := List.cons.inj hcalls
      exact absurd hnext (by decide)
    | [_], hcalls =>
      obtain ⟨rfl, -⟩ := List.cons.inj (List.cons.inj hcalls).2
      obtain rfl := (List.cons.inj hcalls).1
      exact absurd hpayload (by decide)
    | _ :: _ :: _, hcalls => simp [calls] at hcalls

/-- One record cut off in its padding: the scan reports that all is well. -/
theorem not_recovers_in_padding :
    ∃ file, runSessions { streamId := 7, epoch := 3 }
        [{ calls := [{ recordType := 200, payload := [1, 2, 3] }] }] .absent = .file file ∧
      ¬ Recovers { streamId := 7, epoch := 3 } [{ recordType := 200, payload := [1, 2, 3] }]
        (file.take 101) 101 := by
  have hwritable : Writable { streamId := 7, epoch := 3 }
      [{ calls := [{ recordType := 200, payload := [1, 2, 3] }] }] :=
    ⟨⟨by decide, by decide, by decide⟩, by decide, by decide, by decide⟩
  refine ⟨_, hwritable.runSessions (by decide), ?_⟩
  exact not_recovers_of_insidePadding hwritable.valid hwritable.fits_calls
    ⟨[], _, [], rfl, by decide, by decide⟩

end Wal
