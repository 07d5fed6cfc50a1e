import Mathlib.Data.List.TakeDrop
import Mathlib.Data.Int.Notation
import Mathlib.Data.Nat.Notation

/-!
# Binary file streams

What a program sees of `std::ifstream` and `std::ofstream` on a file of bytes. An
input stream has a position, the three state bits and the count of the last
unformatted read; the bytes of the file are an argument of every operation, so that
the file may grow between two reads. An output stream opened for appending holds
bytes back until they are flushed, and any part of them may reach the file earlier. After an
operation that has failed, closing the stream is modelled only in part: the source's library
writes again all that was held back before, and here only what has not yet arrived is written.

Failures of the device are scripts: an input stream carries one entry for each
request that reaches the file and an output stream one for each operation. A script
that has run out stands for operations that succeed.
-/

/-- What a path leads to. -/
inductive FileEntry where
  | absent
  | directory
  | file (bytes : List UInt8)
  deriving DecidableEq

namespace FileEntry

/-- The bytes of a regular file. -/
def bytes? : FileEntry → Option (List UInt8)
  | .file bytes => some bytes
  | _ => none

/-- `std::filesystem::resize_file`: cut off at the end or fill up with zeros. -/
def resize (size : ℕ) : FileEntry → FileEntry
  | .file bytes => .file (bytes.takeD size 0)
  | entry => entry

/-- Bytes arrive at the end of the file. -/
def append (more : List UInt8) : FileEntry → FileEntry
  | .file bytes => .file (bytes ++ more)
  | entry => entry

end FileEntry

/-- `std::ifstream` on an open binary file. -/
structure InputStream where
  /-- The offset of the next byte. -/
  position : ℕ := 0
  eof : Bool := false
  fail : Bool := false
  bad : Bool := false
  /-- The number of bytes the last unformatted read extracted. -/
  gcount : ℕ := 0
  /-- For each request that reaches the file: no error, or an error after so many bytes. -/
  faults : List (Option ℕ) := []
  deriving DecidableEq

namespace InputStream

/-- `good()`: none of the state bits is set. -/
def good (s : InputStream) : Bool := !s.eof && !s.fail && !s.bad

/-- `operator!`: the end of the file alone is no failure. -/
def failed (s : InputStream) : Bool := s.fail || s.bad

/-- `clear()`. -/
def clear (s : InputStream) : InputStream := { s with eof := false, fail := false, bad := false }

/-- A request for `count` bytes reaches the file. An error stops it short of them and
sets the bad bit; the end of the file sets the end bit. -/
def extract (file : List UInt8) (count : ℕ) (s : InputStream) : List UInt8 × InputStream :=
  match s.faults with
  | some delivered :: faults =>
    let bytes := (file.drop s.position).take (min delivered (count - 1))
    (bytes, { s with
      position := s.position + bytes.length
      gcount := bytes.length
      bad := true
      faults := faults })
  | faults =>
    let bytes := (file.drop s.position).take count
    (bytes, { s with
      position := s.position + bytes.length
      gcount := bytes.length
      eof := decide (bytes.length < count)
      faults := faults.tail })

/-- `read`: at the end of the file the fail bit is set as well. -/
def read (file : List UInt8) (count : ℕ) (s : InputStream) : List UInt8 × InputStream :=
  if s.good then
    let result := s.extract file count
    (result.1, { result.2 with fail := result.2.eof })
  else ([], { s with gcount := 0, fail := true })

/-- `ignore`: only the end bit is set at the end of the file, and a count that is not
positive extracts nothing. -/
def ignore (file : List UInt8) (count : ℤ) (s : InputStream) : InputStream :=
  if s.good then
    if count ≤ 0 then { s with gcount := 0 }
    else (s.extract file count.toNat).2
  else { s with gcount := 0, fail := true }

/-- `tellg`: a stream that is not good fails and has no position. -/
def tellg (s : InputStream) : Option ℕ × InputStream :=
  if s.good then (some s.position, s) else (none, { s with fail := true })

/-- An open stream without errors at an offset inside the file. -/
def reading (position gcount : ℕ) : InputStream := { position := position, gcount := gcount }

/-- A stream that skipped past the end of the file. -/
def past (position gcount : ℕ) : InputStream :=
  { position := position, eof := true, gcount := gcount }

variable {file : List UInt8} {position gcount count : ℕ}

@[simp] theorem reading_failed : (reading position gcount).failed = false := rfl

@[simp] theorem past_failed : (past position gcount).failed = false := rfl

@[simp] theorem tellg_reading :
    (reading position gcount).tellg = (some position, reading position gcount) := rfl

/-- The position is asked for once. -/
@[simp] theorem tellg_tellg (s : InputStream) : s.tellg.2.tellg = s.tellg := by
  unfold tellg
  by_cases h : s.good = true
  · rw [if_pos h, if_pos h]
  · have hfailed : ({ s with fail := true } : InputStream).good = false := by
      simp [good]
    rw [if_neg h, if_neg (by rw [hfailed]; decide)]

/-! ## Errors to come -/

/-- An open stream that has met no error yet, with the errors to come. -/
def readingWith (position gcount : ℕ) (faults : List (Option ℕ)) : InputStream :=
  { position := position, gcount := gcount, faults := faults }

/-- The next requests of this number meet no error. -/
def Clean (requests : ℕ) (faults : List (Option ℕ)) : Prop :=
  ∀ fault ∈ faults.take requests, fault = none

instance (requests : ℕ) (faults : List (Option ℕ)) : Decidable (Clean requests faults) :=
  inferInstanceAs (Decidable (∀ fault ∈ faults.take requests, fault = none))

variable {faults : List (Option ℕ)}

theorem clean_zero : Clean 0 faults := fun _ h => absurd h (by simp)

theorem clean_nil (requests : ℕ) : Clean requests [] := fun _ h => absurd h (by simp)

/-- Requests are made one after the other. -/
theorem clean_add {first rest : ℕ} :
    Clean (first + rest) faults ↔ Clean first faults ∧ Clean rest (faults.drop first) := by
  unfold Clean
  rw [List.take_add, List.forall_mem_append]

theorem good_readingWith : (readingWith position gcount faults).good = true := rfl

@[simp] theorem tellg_readingWith :
    (readingWith position gcount faults).tellg =
      (some position, readingWith position gcount faults) := rfl

/-- A request that meets no error delivers its bytes. -/
theorem extract_of_clean (hclean : Clean 1 faults) (h : position + count ≤ file.length) :
    (readingWith position gcount faults).extract file count =
      ((file.drop position).take count, readingWith (position + count) count (faults.drop 1)) := by
  have hlength : ((file.drop position).take count).length = count := by
    rw [List.length_take, List.length_drop]
    omega
  match faults, hclean with
  | [], _ => simp [extract, readingWith, hlength]
  | none :: faults, _ => simp [extract, readingWith, hlength]
  | some delivered :: faults, hclean =>
    exact absurd (hclean (some delivered) List.mem_cons_self) (Option.some_ne_none delivered)

/-- A request that meets an error delivers too few bytes and does not see the end of the file. -/
theorem extract_of_not_clean (hfaulty : ¬ Clean 1 faults) (hcount : 0 < count) :
    ((readingWith position gcount faults).extract file count).2.gcount < count ∧
      ((readingWith position gcount faults).extract file count).2.eof = false ∧
      ((readingWith position gcount faults).extract file count).2.bad = true := by
  match faults, hfaulty with
  | [], hfaulty => exact absurd (clean_nil 1) hfaulty
  | none :: faults, hfaulty => exact absurd (fun _ h => by simpa using h) hfaulty
  | some delivered :: faults, _ =>
    refine ⟨?_, rfl, rfl⟩
    change ((file.drop position).take (min delivered (count - 1))).length < count
    rw [List.length_take]
    omega

/-- A read inside the file that meets no error. -/
theorem read_of_clean (hclean : Clean 1 faults) (h : position + count ≤ file.length) :
    (readingWith position gcount faults).read file count =
      ((file.drop position).take count, readingWith (position + count) count (faults.drop 1)) := by
  unfold read
  rw [if_pos good_readingWith, extract_of_clean hclean h]
  rfl

/-- A read that meets an error is noticed by its count alone. -/
theorem read_of_not_clean (hfaulty : ¬ Clean 1 faults) (hcount : 0 < count) :
    ((readingWith position gcount faults).read file count).2.gcount < count ∧
      ((readingWith position gcount faults).read file count).2.eof = false := by
  obtain ⟨hshort, hend, -⟩ := @extract_of_not_clean file position gcount count faults hfaulty hcount
  unfold read
  rw [if_pos good_readingWith]
  exact ⟨hshort, hend⟩

/-- A stream without errors so far is one that can be read from. -/
theorem eq_readingWith {s : InputStream} (hgood : s.good = true) :
    s = readingWith s.position s.gcount s.faults := by
  obtain ⟨position, eof, fail, bad, gcount, faults⟩ := s
  cases eof <;> cases fail <;> cases bad <;> first | rfl | cases hgood

/-- A read inside the file that delivers its bytes was made on a stream without errors and
met none. -/
theorem read_of_gcount {s : InputStream} (hcount : 0 < count)
    (hinside : s.position + count ≤ file.length) (hread : (s.read file count).2.gcount = count) :
    s.good = true ∧
      s.read file count =
        ((file.drop s.position).take count,
          readingWith (s.position + count) count (s.faults.drop 1)) := by
  have hgood : s.good = true := by
    by_contra hbad
    unfold read at hread
    rw [if_neg hbad] at hread
    exact Nat.ne_of_lt hcount hread
  refine ⟨hgood, ?_⟩
  rw [eq_readingWith hgood] at hread ⊢
  by_cases hclean : Clean 1 s.faults
  · exact read_of_clean hclean hinside
  · exact absurd hread (Nat.ne_of_lt (read_of_not_clean hclean hcount).1)

/-- A read at the end of the file that meets no error sees the end. -/
theorem read_end_of_clean (hclean : Clean 1 faults) (hcount : 0 < count) :
    ((readingWith file.length gcount faults).read file count).2.gcount = 0 ∧
      ((readingWith file.length gcount faults).read file count).2.eof = true := by
  match faults, hclean with
  | [], _ => simp [read, good, extract, readingWith, hcount]
  | none :: faults, _ => simp [read, good, extract, readingWith, hcount]
  | some delivered :: faults, hclean =>
    exact absurd (hclean (some delivered) List.mem_cons_self) (Option.some_ne_none delivered)

/-- Bytes inside the file are skipped if the request meets no error. -/
theorem ignore_of_clean (hclean : Clean 1 faults) (hcount : 0 < count)
    (h : position + count ≤ file.length) :
    (readingWith position gcount faults).ignore file count =
      readingWith (position + count) count (faults.drop 1) := by
  have hpos : ¬ ((count : ℤ) ≤ 0) := by omega
  unfold ignore
  rw [if_pos good_readingWith, if_neg hpos, Int.toNat_natCast, extract_of_clean hclean h]

/-- A skip that meets an error fails. -/
theorem ignore_of_not_clean (hfaulty : ¬ Clean 1 faults) (hcount : 0 < count) :
    ((readingWith position gcount faults).ignore file count).failed = true := by
  have hpos : ¬ ((count : ℤ) ≤ 0) := by omega
  obtain ⟨-, -, hbad⟩ := @extract_of_not_clean file position gcount count faults hfaulty hcount
  unfold ignore
  rw [if_pos good_readingWith, if_neg hpos, Int.toNat_natCast, failed, hbad, Bool.or_true]

/-- There is nothing to skip, and no request is made. -/
theorem ignore_readingWith_of_nonpos {count : ℤ} (hcount : count ≤ 0) :
    (readingWith position gcount faults).ignore file count = readingWith position 0 faults := by
  unfold ignore
  rw [if_pos good_readingWith, if_pos hcount]
  rfl

/-! ## No errors to come -/

/-- A read inside the file delivers its bytes. -/
theorem read_of_le (h : position + count ≤ file.length) :
    (reading position gcount).read file count =
      ((file.drop position).take count, reading (position + count) count) :=
  read_of_clean (clean_nil 1) h

/-- A read that passes the end of the file delivers what is left and fails. -/
theorem read_of_lt (h : position ≤ file.length) (hlt : file.length < position + count) :
    (reading position gcount).read file count =
      (file.drop position, { position := file.length, eof := true, fail := true,
                             gcount := file.length - position }) := by
  have htake : (file.drop position).take count = file.drop position :=
    List.take_of_length_le (by rw [List.length_drop]; omega)
  have hshort : file.length - position < count := by omega
  simp [read, reading, good, extract, htake, hshort, Nat.add_sub_cancel' h]

/-- A stream past the end of the file reads nothing and fails. -/
theorem read_past : (past position gcount).read file count =
    ([], { position := position, eof := true, fail := true, gcount := 0 }) := rfl

/-- A stream that failed past the end of the file stays so. -/
theorem read_tellg_past : (past position gcount).tellg.2.read file count =
    ([], { position := position, eof := true, fail := true, gcount := 0 }) := rfl

/-- There is nothing to skip. -/
theorem ignore_of_nonpos {count : ℤ} (hcount : count ≤ 0) :
    (reading position gcount).ignore file count = reading position 0 :=
  ignore_readingWith_of_nonpos hcount

/-- Bytes inside the file are skipped. -/
theorem ignore_of_le (hcount : 0 < count) (h : position + count ≤ file.length) :
    (reading position gcount).ignore file count = reading (position + count) count :=
  ignore_of_clean (clean_nil 1) hcount h

/-- Skipping past the end of the file sets the end bit and nothing else. -/
theorem ignore_of_lt (h : position ≤ file.length) (hlt : file.length < position + count) :
    (reading position gcount).ignore file count = past file.length (file.length - position) := by
  have htake : (file.drop position).take count = file.drop position :=
    List.take_of_length_le (by rw [List.length_drop]; omega)
  have hshort : file.length - position < count := by omega
  have hpos : count ≠ 0 := by omega
  simp [ignore, reading, past, good, extract, htake, hshort, hpos, Nat.add_sub_cancel' h]

end InputStream

/-- `std::ifstream` on a path: the stream and the bytes behind it. A missing file is not opened.
A directory is opened like a file, and the first read fails. -/
def FileEntry.openRead (faults : List (Option ℕ)) : FileEntry → Option (List UInt8 × InputStream)
  | .absent => none
  | .directory => some ([], { faults := [some 0] })
  | .file bytes => some (bytes, { faults := faults })

/-- What the device makes of one operation of an output stream: how many of the bytes
held back reach the file, and whether the operation fails. -/
inductive SinkOutcome where
  | done (spilled : ℕ)
  | failed (spilled : ℕ)
  deriving DecidableEq

namespace SinkOutcome

/-- How many bytes reach the file. -/
def spilled : SinkOutcome → ℕ
  | .done spilled => spilled
  | .failed spilled => spilled

/-- The operation fails. -/
def fails : SinkOutcome → Bool
  | .done _ => false
  | .failed _ => true

end SinkOutcome

/-- `std::ofstream` on a path, opened with `binary | app`. -/
structure OutputStream where
  /-- What is at the path. -/
  entry : FileEntry
  isOpen : Bool := false
  /-- `operator!`. -/
  failed : Bool := false
  /-- The bytes held back. -/
  buffer : List UInt8 := []
  /-- What the device makes of the next operations. -/
  outcomes : List SinkOutcome := []
  deriving DecidableEq

namespace OutputStream

/-- The outcome of the next operation. -/
def outcome (s : OutputStream) : SinkOutcome := s.outcomes.headD (.done 0)

/-- `open` in append mode creates a missing file and never opens a directory. -/
def openAppend (s : OutputStream) : OutputStream :=
  let s' := { s with outcomes := s.outcomes.tail }
  if s.outcome.fails then { s' with failed := true }
  else
    match s.entry with
    | .absent => { s' with entry := .file [], isOpen := true }
    | .directory => { s' with failed := true }
    | .file _ => { s' with isOpen := true }

/-- The first bytes held back reach the file. -/
def spill (count : ℕ) (s : OutputStream) : OutputStream :=
  { s with entry := s.entry.append (s.buffer.take count), buffer := s.buffer.drop count }

/-- `write` does nothing on a failed stream and fails on a closed one. -/
def write (bytes : List UInt8) (s : OutputStream) : OutputStream :=
  if s.failed || !s.isOpen then { s with failed := true }
  else
    { s with
      buffer := s.buffer ++ bytes
      failed := s.outcome.fails
      outcomes := s.outcomes.tail }.spill s.outcome.spilled

/-- `flush` brings everything held back to the file, unless it fails. -/
def flush (s : OutputStream) : OutputStream :=
  if s.failed || !s.isOpen then s
  else
    { s with failed := s.outcome.fails, outcomes := s.outcomes.tail }.spill
      (if s.outcome.fails then s.outcome.spilled else s.buffer.length)

/-- The destructor closes an open file, which tries to write what is held back. Of a stream that
has failed it would write once more what has arrived in part; this is left out. -/
def close (s : OutputStream) : FileEntry :=
  if s.isOpen then
    (s.spill (if s.outcome.fails then s.outcome.spilled else s.buffer.length)).entry
  else s.entry

/-- No operation of the stream is going to fail. -/
def Reliable (s : OutputStream) : Prop := ∀ outcome ∈ s.outcomes, outcome.fails = false

/-- An open stream that has not failed and will not fail, whose bytes in the file and
bytes held back are together `bytes`. -/
structure Holds (bytes : List UInt8) (s : OutputStream) : Prop where
  isOpen : s.isOpen = true
  failed : s.failed = false
  reliable : s.Reliable
  /-- The bytes in the file come first. -/
  bytes : ∃ written, s.entry = .file written ∧ written ++ s.buffer = bytes

theorem Reliable.tail {s : OutputStream} (h : s.Reliable) :
    ∀ outcome ∈ s.outcomes.tail, outcome.fails = false :=
  fun outcome ho => h outcome (List.mem_of_mem_tail ho)

theorem Reliable.outcome {s : OutputStream} (h : s.Reliable) : s.outcome.fails = false := by
  unfold OutputStream.outcome
  cases houtcomes : s.outcomes with
  | nil => rfl
  | cons outcome rest => exact h outcome (houtcomes ▸ List.mem_cons_self)

/-- Opening a regular file leaves it as it is, whether or not the operation fails. -/
theorem openAppend_of_file {s : OutputStream} {bytes : List UInt8}
    (hentry : s.entry = .file bytes) :
    s.openAppend.entry = .file bytes ∧ s.openAppend.buffer = s.buffer := by
  unfold openAppend
  dsimp only
  split
  · exact ⟨hentry, rfl⟩
  · rw [hentry]
    exact ⟨rfl, rfl⟩

/-- Opening a reliable stream on a regular file. -/
theorem Reliable.openAppend_file {s : OutputStream} (h : s.Reliable) {bytes : List UInt8}
    (hentry : s.entry = .file bytes) (hbuffer : s.buffer = []) (hfailed : s.failed = false) :
    s.openAppend.Holds bytes := by
  unfold openAppend
  simp only [h.outcome, Bool.false_eq_true, if_false, hentry]
  exact ⟨rfl, hfailed, h.tail, bytes, rfl, by rw [hbuffer, List.append_nil]⟩

/-- Opening a reliable stream creates a missing file. -/
theorem Reliable.openAppend_absent {s : OutputStream} (h : s.Reliable)
    (hentry : s.entry = .absent) (hbuffer : s.buffer = []) (hfailed : s.failed = false) :
    s.openAppend.Holds [] := by
  unfold openAppend
  simp only [h.outcome, Bool.false_eq_true, if_false, hentry]
  exact ⟨rfl, hfailed, h.tail, [], rfl, by rw [hbuffer, List.append_nil]⟩

/-- Bytes that move on to the file stay where they are in the sequence. -/
theorem Holds.spill {bytes : List UInt8} {s : OutputStream} (h : s.Holds bytes) (count : ℕ) :
    (s.spill count).Holds bytes := by
  obtain ⟨written, hentry, hbytes⟩ := h.bytes
  refine ⟨h.isOpen, h.failed, h.reliable, written ++ s.buffer.take count, ?_, ?_⟩
  · rw [OutputStream.spill, hentry, FileEntry.append]
  · rw [OutputStream.spill, List.append_assoc, List.take_append_drop, hbytes]

/-- Written bytes come behind the earlier ones. -/
theorem Holds.write {bytes : List UInt8} {s : OutputStream} (h : s.Holds bytes)
    (more : List UInt8) : (s.write more).Holds (bytes ++ more) := by
  obtain ⟨written, hentry, hbytes⟩ := h.bytes
  unfold OutputStream.write
  rw [h.failed, h.isOpen, if_neg (by decide)]
  apply Holds.spill
  exact ⟨rfl, h.reliable.outcome, h.reliable.tail, written, hentry,
    by rw [← List.append_assoc, hbytes]⟩

/-- A write that is left out when there is nothing to write. -/
theorem Holds.write_if {bytes : List UInt8} {s : OutputStream} (h : s.Holds bytes)
    (more : List UInt8) {p : Prop} [Decidable p] (hp : ¬ p → more = []) :
    (if p then s.write more else s).Holds (bytes ++ more) := by
  by_cases hwrite : p
  · rw [if_pos hwrite]
    exact h.write more
  · rw [if_neg hwrite, hp hwrite, List.append_nil]
    exact h

/-- After a flush everything is in the file. -/
theorem Holds.flush {bytes : List UInt8} {s : OutputStream} (h : s.Holds bytes) :
    s.flush.Holds bytes ∧ s.flush.entry = .file bytes := by
  obtain ⟨written, hentry, hbytes⟩ := h.bytes
  unfold OutputStream.flush
  rw [h.failed, h.isOpen, if_neg (by decide), h.reliable.outcome, if_neg (by decide)]
  constructor
  · apply Holds.spill
    exact ⟨rfl, rfl, h.reliable.tail, written, hentry, hbytes⟩
  · rw [OutputStream.spill, hentry, FileEntry.append, List.take_length, hbytes]

/-- Closing leaves everything in the file. -/
theorem Holds.close {bytes : List UInt8} {s : OutputStream} (h : s.Holds bytes) :
    s.close = .file bytes := by
  obtain ⟨written, hentry, hbytes⟩ := h.bytes
  unfold OutputStream.close
  rw [h.isOpen, if_pos rfl, h.reliable.outcome, if_neg (by decide), OutputStream.spill, hentry,
    FileEntry.append, List.take_length, hbytes]

/-! ## Streams that may fail -/

/-- A stream on a file that was to write these bytes: the bytes in the file and the bytes held
back are the first of them, and all of them unless an operation has failed. -/
structure Intends (bytes : List UInt8) (s : OutputStream) : Prop where
  written : ∃ written, s.entry = .file written ∧ written ++ s.buffer <+: bytes
  isOpen : s.failed = false → s.isOpen = true
  complete : s.failed = false → ∀ written, s.entry = .file written → written ++ s.buffer = bytes

/-- Bytes that move on to the file stay where they are in the sequence. -/
theorem Intends.spill {bytes : List UInt8} {s : OutputStream} (h : s.Intends bytes) (count : ℕ) :
    (s.spill count).Intends bytes := by
  obtain ⟨written, hentry, hprefix⟩ := h.written
  have hsame : (written ++ s.buffer.take count) ++ s.buffer.drop count = written ++ s.buffer := by
    rw [List.append_assoc, List.take_append_drop]
  have hspilled : (s.spill count).entry = .file (written ++ s.buffer.take count) := by
    rw [OutputStream.spill, hentry, FileEntry.append]
  refine ⟨⟨_, hspilled, ?_⟩, h.isOpen, fun hok written' hwritten' => ?_⟩
  · change (written ++ s.buffer.take count) ++ s.buffer.drop count <+: bytes
    rw [hsame]
    exact hprefix
  · obtain rfl : written ++ s.buffer.take count = written' := by
      rw [hspilled] at hwritten'
      exact FileEntry.file.inj hwritten'
    exact hsame.trans (h.complete hok written hentry)

/-- After a failure more may be meant to come. -/
theorem Intends.extend {bytes : List UInt8} {s : OutputStream} (h : s.Intends bytes)
    (hfailed : s.failed = true) (more : List UInt8) : s.Intends (bytes ++ more) := by
  obtain ⟨written, hentry, hprefix⟩ := h.written
  refine ⟨⟨written, hentry, hprefix.trans (List.prefix_append _ _)⟩, h.isOpen, fun hok => ?_⟩
  rw [hfailed] at hok
  cases hok

/-- Written bytes are meant to come behind the earlier ones. -/
theorem Intends.write {bytes : List UInt8} {s : OutputStream} (h : s.Intends bytes)
    (more : List UInt8) : (s.write more).Intends (bytes ++ more) := by
  unfold OutputStream.write
  by_cases hfailed : s.failed = true
  · rw [hfailed, Bool.true_or, if_pos rfl]
    have hextended := h.extend hfailed more
    exact ⟨hextended.written, fun hok => (by cases hok), fun hok => (by cases hok)⟩
  · have hok : s.failed = false := by simpa using hfailed
    obtain ⟨written, hentry, -⟩ := h.written
    have hbytes := h.complete hok written hentry
    have hready : (s.failed || !s.isOpen) = false := by rw [hok, h.isOpen hok]; rfl
    rw [if_neg (by rw [hready]; decide)]
    apply Intends.spill
    have hmore : written ++ (s.buffer ++ more) = bytes ++ more := by
      rw [← List.append_assoc, hbytes]
    refine ⟨⟨written, hentry, hmore ▸ List.prefix_rfl⟩, fun _ => h.isOpen hok, ?_⟩
    intro _ written' hwritten'
    obtain rfl : written = written' := FileEntry.file.inj (hentry.symm.trans hwritten')
    exact hmore

/-- A write that is left out when there is nothing to write. -/
theorem Intends.write_if {bytes : List UInt8} {s : OutputStream} (h : s.Intends bytes)
    (more : List UInt8) {p : Prop} [Decidable p] (hp : ¬ p → more = []) :
    (if p then s.write more else s).Intends (bytes ++ more) := by
  by_cases hwrite : p
  · rw [if_pos hwrite]
    exact h.write more
  · rw [if_neg hwrite, hp hwrite, List.append_nil]
    exact h

/-- A flush means no other bytes, and if it succeeds everything is in the file. -/
theorem Intends.flush {bytes : List UInt8} {s : OutputStream} (h : s.Intends bytes) :
    s.flush.Intends bytes ∧ (s.flush.failed = false → s.flush.entry = .file bytes) := by
  unfold OutputStream.flush
  by_cases hfailed : s.failed = true
  · rw [hfailed, Bool.true_or, if_pos rfl]
    exact ⟨h, fun hok => by rw [hfailed] at hok; cases hok⟩
  · have hok : s.failed = false := by simpa using hfailed
    obtain ⟨written, hentry, hprefix⟩ := h.written
    have hbytes := h.complete hok written hentry
    have hready : (s.failed || !s.isOpen) = false := by rw [hok, h.isOpen hok]; rfl
    rw [if_neg (by rw [hready]; decide)]
    have hnext : OutputStream.Intends bytes
        { s with failed := s.outcome.fails, outcomes := s.outcomes.tail } :=
      ⟨⟨written, hentry, hprefix⟩, fun _ => h.isOpen hok, fun _ => h.complete hok⟩
    refine ⟨hnext.spill _, fun hdone => ?_⟩
    have hsucceeds : s.outcome.fails = false := hdone
    rw [hsucceeds, if_neg (by decide), OutputStream.spill, hentry, FileEntry.append,
      List.take_length, hbytes]

/-- Closing leaves the first bytes in the file. -/
theorem Intends.close {bytes : List UInt8} {s : OutputStream} (h : s.Intends bytes) :
    ∃ written, s.close = .file written ∧ written <+: bytes := by
  unfold OutputStream.close
  split
  · obtain ⟨written, hentry, hprefix⟩ :=
      (h.spill (if s.outcome.fails then s.outcome.spilled else s.buffer.length)).written
    exact ⟨written, hentry, (List.prefix_append _ _).trans hprefix⟩
  · obtain ⟨written, hentry, hprefix⟩ := h.written
    exact ⟨written, hentry, (List.prefix_append _ _).trans hprefix⟩

/-- Opening a file for appending: what is in it stays, whether or not the operation fails. -/
theorem intends_openAppend (bytes : List UInt8) (outcomes : List SinkOutcome) :
    (openAppend { entry := .file bytes, outcomes := outcomes }).Intends bytes := by
  unfold openAppend
  dsimp only
  split
  · exact ⟨⟨bytes, rfl, by simp⟩, fun hok => (by cases hok), fun hok => (by cases hok)⟩
  · refine ⟨⟨bytes, rfl, by simp⟩, fun _ => rfl, fun _ written hwritten => ?_⟩
    cases hwritten
    exact List.append_nil _

/-- Opening a missing file for appending: it is created, or it stays missing. -/
theorem openAppend_absent (outcomes : List SinkOutcome) :
    let s := openAppend { entry := .absent, outcomes := outcomes }
    s.failed = true ∧ s.isOpen = false ∧ s.entry = .absent ∨ s.Intends [] := by
  intro s
  by_cases hfails : OutputStream.outcome { entry := .absent, outcomes := outcomes } |>.fails
  · have hopen : s = { entry := .absent, failed := true, outcomes := outcomes.tail } :=
      if_pos hfails
    rw [hopen]
    exact .inl ⟨rfl, rfl, rfl⟩
  · have hopen : s = { entry := .file [], isOpen := true, outcomes := outcomes.tail } :=
      if_neg hfails
    rw [hopen]
    refine .inr ⟨⟨[], rfl, List.prefix_rfl⟩, fun _ => rfl, fun _ written hwritten => ?_⟩
    cases hwritten
    rfl

/-- A write on a stream that has failed only fails. -/
theorem write_of_failed {s : OutputStream} (hfailed : s.failed = true) (bytes : List UInt8) :
    (s.write bytes).failed = true ∧ (s.write bytes).isOpen = s.isOpen ∧
      (s.write bytes).entry = s.entry := by
  unfold OutputStream.write
  rw [hfailed, Bool.true_or, if_pos rfl]
  exact ⟨rfl, rfl, rfl⟩

/-- The bytes in the file stay there and others may come behind them. -/
def Grows (s t : OutputStream) : Prop :=
  ∀ bytes, s.entry = .file bytes → ∃ more, t.entry = .file (bytes ++ more)

theorem Grows.refl (s : OutputStream) : s.Grows s :=
  fun bytes h => ⟨[], by rw [h, List.append_nil]⟩

theorem Grows.trans {s t u : OutputStream} (hst : s.Grows t) (htu : t.Grows u) : s.Grows u := by
  intro bytes h
  obtain ⟨more, hmore⟩ := hst bytes h
  obtain ⟨rest, hrest⟩ := htu _ hmore
  exact ⟨more ++ rest, by rw [hrest, List.append_assoc]⟩

theorem grows_spill (s : OutputStream) (count : ℕ) : s.Grows (s.spill count) :=
  fun bytes h => ⟨s.buffer.take count, by rw [OutputStream.spill, h, FileEntry.append]⟩

/-- A write takes no bytes out of the file. -/
theorem grows_write (s : OutputStream) (bytes : List UInt8) : s.Grows (s.write bytes) := by
  unfold OutputStream.write
  split
  · exact .refl s
  · exact (Grows.refl s).trans (grows_spill
      { s with
        buffer := s.buffer ++ bytes
        failed := s.outcome.fails
        outcomes := s.outcomes.tail } _)

/-- A write that may be left out. -/
theorem grows_write_if (s : OutputStream) (bytes : List UInt8) (p : Prop) [Decidable p] :
    s.Grows (if p then s.write bytes else s) := by
  split
  · exact grows_write s bytes
  · exact .refl s

/-- A flush takes no bytes out of the file. -/
theorem grows_flush (s : OutputStream) : s.Grows s.flush := by
  unfold OutputStream.flush
  split
  · exact .refl s
  · exact (Grows.refl s).trans (grows_spill
      { s with failed := s.outcome.fails, outcomes := s.outcomes.tail } _)

/-- Closing takes no bytes out of the file. -/
theorem close_of_file {s : OutputStream} {bytes : List UInt8} (hentry : s.entry = .file bytes) :
    ∃ more, s.close = .file (bytes ++ more) := by
  unfold OutputStream.close
  split
  · exact grows_spill s _ bytes hentry
  · exact ⟨[], by rw [hentry, List.append_nil]⟩

end OutputStream
