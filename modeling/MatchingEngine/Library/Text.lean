import Mathlib.Algebra.Group.Int.Defs
import Mathlib.Algebra.Group.Nat.Defs
import Mathlib.Data.List.Basic
import Mathlib.Data.List.TakeWhile

/-!
# Text as bytes

What programs do with plain text: taking it line by line, taking the words of a line one
after the other, and reading decimal numbers. The operations take something from the front
and leave the rest, like those of `<istream>` and `<charconv>`; they are compared with what
a text consists of as a whole.
-/

namespace Text

/-- The bytes of an ASCII literal. -/
def ascii (literal : String) : List UInt8 := literal.toList.map Char.toUInt8

/-! ## Lines -/

/-- The byte that ends a line. -/
def newline : UInt8 := 10

/-- `std::getline`: the line at the front and what is behind it, or nothing at the end. -/
def getline (text : List UInt8) : Option (List UInt8 × List UInt8) :=
  if text = [] then none
  else some (text.takeWhile (· ≠ newline), (text.dropWhile (· ≠ newline)).tail)

/-- The lines of a text. The last one need not be ended. -/
def lines : List UInt8 → List (List UInt8)
  | [] => []
  | byte :: rest =>
    if byte = newline then [] :: lines rest
    else
      match lines rest with
      | [] => [[byte]]
      | line :: more => (byte :: line) :: more

/-- Without another line there are no lines. -/
theorem lines_of_getline_none {text : List UInt8} (h : getline text = none) : lines text = [] := by
  unfold getline at h
  split at h
  · rename_i hempty
    rw [hempty]
    rfl
  · cases h

/-- The first line is the one that is taken, and the others are those of the rest. -/
theorem lines_of_getline {text line rest : List UInt8} (h : getline text = some (line, rest)) :
    lines text = line :: lines rest ∧ rest.length < text.length := by
  unfold getline at h
  induction text generalizing line rest with
  | nil => cases h
  | cons byte text ih =>
    rw [if_neg (List.cons_ne_nil _ _)] at h
    obtain ⟨rfl, rfl⟩ := Prod.mk.inj (Option.some.inj h)
    by_cases hbyte : byte = newline
    · simp [lines, hbyte]
    · have htake : (byte :: text).takeWhile (· ≠ newline) = byte :: text.takeWhile (· ≠ newline) :=
        List.takeWhile_cons_of_pos (by simpa using hbyte)
      have hdrop : (byte :: text).dropWhile (· ≠ newline) = text.dropWhile (· ≠ newline) :=
        List.dropWhile_cons_of_pos (by simpa using hbyte)
      rw [htake, hdrop]
      cases text with
      | nil => simp [lines, hbyte]
      | cons next text =>
        obtain ⟨hlines, hlength⟩ := ih (if_neg (List.cons_ne_nil _ _))
        rw [lines, if_neg hbyte, hlines]
        exact ⟨rfl, Nat.lt_succ_of_lt hlength⟩

/-! ## Words -/

/-- `std::isspace` in the classic locale. -/
def isSpace (byte : UInt8) : Bool := byte = 32 || (9 ≤ byte && byte ≤ 13)

/-- The words of a text: what is between the spaces. -/
def words (text : List UInt8) : List (List UInt8) :=
  (text.splitOnP isSpace).filter (· ≠ [])

/-- `operator>>` for strings: the word at the front, without the spaces before it, and what
is behind it. -/
def nextWord (text : List UInt8) : Option (List UInt8 × List UInt8) :=
  let text := text.dropWhile isSpace
  if text = [] then none
  else some (text.takeWhile (!isSpace ·), text.dropWhile (!isSpace ·))

/-- So many words one after the other, or nothing when there are fewer. -/
def nextWords : ℕ → List UInt8 → Option (List (List UInt8) × List UInt8)
  | 0, text => some ([], text)
  | count + 1, text =>
    match nextWord text with
    | none => none
    | some (word, rest) => (nextWords count rest).map fun more => (word :: more.1, more.2)

/-- A space in front of a text is not in its words. -/
theorem words_cons_of_space {byte : UInt8} (hspace : isSpace byte = true) (text : List UInt8) :
    words (byte :: text) = words text := by
  unfold words
  rw [← List.nil_append (byte :: text), List.splitOnP_append_cons [] text hspace]
  simp

/-- Spaces in front of a text are not in its words. -/
theorem words_dropWhile (text : List UInt8) : words (text.dropWhile isSpace) = words text := by
  induction text with
  | nil => rfl
  | cons byte text ih =>
    by_cases hspace : isSpace byte = true
    · rw [List.dropWhile_cons_of_pos hspace, ih, words_cons_of_space hspace]
    · rw [List.dropWhile_cons_of_neg hspace]

/-- A word ends at the first space or at the end of the text. -/
theorem words_append {word rest : List UInt8} (hword : word ≠ [])
    (hnone : ∀ byte ∈ word, isSpace byte = false)
    (hrest : ∀ byte ∈ rest.head?, isSpace byte = true) :
    words (word ++ rest) = word :: words rest := by
  cases rest with
  | nil =>
    unfold words
    rw [List.append_nil, List.splitOnP_eq_singleton hnone]
    simp [hword]
  | cons separator rest =>
    have hseparator : isSpace separator = true := hrest separator rfl
    rw [words_cons_of_space hseparator]
    unfold words
    rw [List.splitOnP_append_cons_of_forall_mem hnone separator hseparator]
    simp [hword]

/-- A text without another word has no words. -/
theorem words_of_nextWord_none {text : List UInt8} (h : nextWord text = none) :
    words text = [] := by
  unfold nextWord at h
  dsimp only at h
  split at h
  · rename_i hempty
    rw [← words_dropWhile, hempty]
    rfl
  · cases h

/-- The first word is the one that is taken, and the others are those of the rest. -/
theorem words_of_nextWord {text word rest : List UInt8} (h : nextWord text = some (word, rest)) :
    words text = word :: words rest := by
  unfold nextWord at h
  dsimp only at h
  split at h
  · cases h
  rename_i hsome
  obtain ⟨rfl, rfl⟩ := Prod.mk.inj (Option.some.inj h)
  rw [← words_dropWhile text]
  generalize hfront : text.dropWhile isSpace = front at hsome ⊢
  obtain ⟨byte, behind, rfl⟩ := List.exists_cons_of_ne_nil hsome
  have hbyte : isSpace byte = false := by
    have hhead := List.head?_dropWhile_not isSpace text
    rw [hfront] at hhead
    simpa using hhead
  have hword : (byte :: behind).takeWhile (!isSpace ·) ≠ [] := by
    rw [List.takeWhile_cons_of_pos (by simp [hbyte])]
    exact List.cons_ne_nil _ _
  have hnone : ∀ b ∈ (byte :: behind).takeWhile (!isSpace ·), isSpace b = false := fun b hb => by
    simpa using List.mem_takeWhile_imp hb
  have hrest : ∀ b ∈ ((byte :: behind).dropWhile (!isSpace ·)).head?, isSpace b = true := by
    intro b hb
    have hhead := List.head?_dropWhile_not (!isSpace ·) (byte :: behind)
    rw [Option.mem_def.mp hb] at hhead
    simpa using hhead
  rw [← words_append hword hnone hrest, List.takeWhile_append_dropWhile]

/-- The words that are taken are the first ones, and the others are those of the rest. -/
theorem words_of_nextWords {count : ℕ} {text rest : List UInt8} {taken : List (List UInt8)}
    (h : nextWords count text = some (taken, rest)) :
    words text = taken ++ words rest ∧ taken.length = count := by
  induction count generalizing text taken with
  | zero =>
    obtain ⟨rfl, rfl⟩ := Prod.mk.inj (Option.some.inj h)
    exact ⟨rfl, rfl⟩
  | succ count ih =>
    unfold nextWords at h
    cases hword : nextWord text with
    | none =>
      rw [hword] at h
      cases h
    | some next =>
      rw [hword] at h
      obtain ⟨more, hmore, heq⟩ := Option.map_eq_some_iff.mp h
      obtain ⟨rfl, rfl⟩ := Prod.mk.inj heq
      obtain ⟨hwords, hlength⟩ := ih hmore
      rw [words_of_nextWord hword, hwords, List.length_cons, hlength]
      exact ⟨rfl, rfl⟩

/-- The first words can be taken. -/
theorem nextWords_of_words {text : List UInt8} {taken more : List (List UInt8)}
    (h : words text = taken ++ more) :
    ∃ rest, nextWords taken.length text = some (taken, rest) ∧ words rest = more := by
  induction taken generalizing text with
  | nil => exact ⟨text, rfl, h⟩
  | cons word taken ih =>
    cases hword : nextWord text with
    | none =>
      rw [words_of_nextWord_none hword] at h
      cases h
    | some next =>
      rw [words_of_nextWord hword] at h
      obtain ⟨rfl, hrest⟩ := List.cons.inj h
      obtain ⟨rest, htaken, hmore⟩ := ih hrest
      refine ⟨rest, ?_, hmore⟩
      simp only [List.length_cons, nextWords, hword, htaken, Option.map_some]

/-! ## Decimal numbers -/

/-- A decimal digit. -/
def isDigit (byte : UInt8) : Bool := 48 ≤ byte && byte ≤ 57

/-- The number that digits denote. -/
def decimalValue (digits : List UInt8) : ℕ :=
  digits.foldl (fun value digit => 10 * value + (digit.toNat - 48)) 0

/-- A text of digits only. -/
def Numeric (text : List UInt8) : Prop := text ≠ [] ∧ ∀ byte ∈ text, isDigit byte = true

instance (text : List UInt8) : Decidable (Numeric text) := inferInstanceAs (Decidable (_ ∧ _))

/-- The text denotes the integer: digits, or digits behind a minus sign. -/
def Denotes (text : List UInt8) (value : ℤ) : Prop :=
  (Numeric text ∧ value = decimalValue text) ∨
    ∃ digits, text = 45 :: digits ∧ Numeric digits ∧ value = -(decimalValue digits : ℤ)

/-- The magnitude that `std::from_chars` reads: the digits at the front, if there are any
and their number is below the limit, and what is behind them. -/
def fromDigits (limit : ℕ) (text : List UInt8) : Option (ℕ × List UInt8) :=
  let digits := text.takeWhile isDigit
  if digits = [] ∨ limit ≤ decimalValue digits then none
  else some (decimalValue digits, text.dropWhile isDigit)

/-- `std::from_chars` for `std::uint64_t`: no sign is accepted. -/
def fromCharsUnsigned (text : List UInt8) : Option (ℕ × List UInt8) := fromDigits (2 ^ 64) text

/-- `std::from_chars` for `std::int64_t`: a minus sign is accepted, a plus sign is not. -/
def fromCharsSigned (text : List UInt8) : Option (ℤ × List UInt8) :=
  match text with
  | 45 :: text => (fromDigits (2 ^ 63 + 1) text).map fun read => (-(read.1 : ℤ), read.2)
  | text => (fromDigits (2 ^ 63) text).map fun read => ((read.1 : ℤ), read.2)

/-- The whole text is read when it has digits only and their number is below the limit. -/
theorem fromDigits_eq_some_iff {limit n : ℕ} {text : List UInt8} :
    fromDigits limit text = some (n, []) ↔ Numeric text ∧ decimalValue text = n ∧ n < limit := by
  unfold fromDigits
  dsimp only
  constructor
  · intro h
    split at h
    · cases h
    rename_i hdigits
    obtain ⟨hvalue, hrest⟩ := Prod.mk.inj (Option.some.inj h)
    have hall : ∀ byte ∈ text, isDigit byte = true := List.dropWhile_eq_nil_iff.mp hrest
    rw [List.takeWhile_eq_self_iff.mpr hall] at hdigits hvalue
    obtain ⟨hsome, hlimit⟩ := not_or.mp hdigits
    exact ⟨⟨hsome, hall⟩, hvalue, hvalue ▸ Nat.lt_of_not_le hlimit⟩
  · rintro ⟨⟨hsome, hall⟩, rfl, hlimit⟩
    rw [List.takeWhile_eq_self_iff.mpr hall, List.dropWhile_eq_nil_iff.mpr hall,
      if_neg (not_or.mpr ⟨hsome, Nat.not_le.mpr hlimit⟩)]

/-- The whole text is read as an unsigned number when it denotes one that fits. -/
theorem fromCharsUnsigned_eq_some_iff {n : ℕ} {text : List UInt8} :
    fromCharsUnsigned text = some (n, []) ↔
      Numeric text ∧ decimalValue text = n ∧ n < 2 ^ 64 :=
  fromDigits_eq_some_iff

/-- The whole text is read as a signed number when it denotes one that fits. -/
theorem fromCharsSigned_eq_some_iff {z : ℤ} {text : List UInt8} :
    fromCharsSigned text = some (z, []) ↔ Denotes text z ∧ -2 ^ 63 ≤ z ∧ z < 2 ^ 63 := by
  unfold fromCharsSigned Denotes
  split
  · rename_i digits
    have hminus : ¬ Numeric (45 :: digits) := fun h =>
      absurd (h.2 45 List.mem_cons_self) (by decide)
    simp only [Option.map_eq_some_iff, Prod.mk.injEq, Prod.exists]
    constructor
    · rintro ⟨n, rest, hread, rfl, rfl⟩
      obtain ⟨hdigits, rfl, hlimit⟩ := fromDigits_eq_some_iff.mp hread
      exact ⟨.inr ⟨digits, rfl, hdigits, rfl⟩, by omega, by omega⟩
    · rintro ⟨⟨hdigits, -⟩ | ⟨digits', heq, hdigits, rfl⟩, hlow, -⟩
      · exact absurd hdigits hminus
      · obtain rfl := (List.cons.inj heq).2
        exact ⟨_, _, fromDigits_eq_some_iff.mpr ⟨hdigits, rfl, by omega⟩, rfl, rfl⟩
  · rename_i hunsigned
    simp only [Option.map_eq_some_iff, Prod.mk.injEq, Prod.exists]
    constructor
    · rintro ⟨n, rest, hread, rfl, rfl⟩
      obtain ⟨hdigits, rfl, hlimit⟩ := fromDigits_eq_some_iff.mp hread
      exact ⟨.inl ⟨hdigits, rfl⟩, by omega, by omega⟩
    · rintro ⟨⟨hdigits, rfl⟩ | ⟨digits, rfl, -, -⟩, -, hhigh⟩
      · exact ⟨_, _, fromDigits_eq_some_iff.mpr ⟨hdigits, rfl, by omega⟩, rfl, rfl⟩
      · exact absurd rfl (hunsigned digits)

/-! ## Printing numbers -/

/-- `operator<<` for unsigned integers. -/
def decimal (n : ℕ) : List UInt8 := ascii (toString n)

/-- `operator<<` for signed integers. -/
def decimalInt (z : ℤ) : List UInt8 := if z < 0 then 45 :: decimal z.natAbs else decimal z.natAbs

/-- The byte of a decimal digit. -/
theorem toUInt8_of_isDigit {c : Char} (h : c.isDigit = true) :
    isDigit c.toUInt8 = true ∧ c.toUInt8.toNat = c.toNat := by
  obtain ⟨hlow, hhigh⟩ : 48 ≤ c.toNat ∧ c.toNat ≤ 57 := by
    rw [Char.isDigit, Bool.and_eq_true, decide_eq_true_eq, decide_eq_true_eq] at h
    exact ⟨UInt32.le_iff_toNat_le.mp h.1, UInt32.le_iff_toNat_le.mp h.2⟩
  have hvalue : c.toUInt8.toNat = c.toNat := by
    change c.toNat % 2 ^ 8 = c.toNat
    omega
  refine ⟨?_, hvalue⟩
  rw [isDigit, Bool.and_eq_true, decide_eq_true_eq, decide_eq_true_eq, UInt8.le_iff_toNat_le,
    UInt8.le_iff_toNat_le, hvalue]
  exact ⟨hlow, hhigh⟩

/-- The digits of a printed number. -/
theorem decimal_eq (n : ℕ) : decimal n = (Nat.toDigits 10 n).map Char.toUInt8 := by
  rw [decimal, ascii, Nat.toString_eq_repr, Nat.toList_repr]

/-- A number is printed in digits. -/
theorem numeric_decimal (n : ℕ) : Numeric (decimal n) := by
  rw [decimal_eq]
  refine ⟨by simp, fun byte hbyte => ?_⟩
  obtain ⟨c, hc, rfl⟩ := List.mem_map.mp hbyte
  exact (toUInt8_of_isDigit (Nat.isDigit_of_mem_toDigits (by omega) (by omega) hc)).1

/-- The digits of a printed number denote it. -/
theorem decimalValue_decimal (n : ℕ) : decimalValue (decimal n) = n := by
  have hvalue : Nat.ofDigitChars 10 (Nat.toDigits 10 n) 0 = n :=
    Nat.ofDigitChars_toDigits (by omega) (by omega)
  rw [Nat.ofDigitChars_eq_foldl] at hvalue
  rw [decimal_eq, decimalValue, List.foldl_map]
  refine Eq.trans (List.foldl_ext _ _ _ fun value c hc => ?_) hvalue
  rw [(toUInt8_of_isDigit (Nat.isDigit_of_mem_toDigits (by omega) (by omega) hc)).2]
  rfl

/-- A printed number can be read back. -/
theorem decimal_injective {n m : ℕ} (h : decimal n = decimal m) : n = m := by
  rw [← decimalValue_decimal n, h, decimalValue_decimal]

/-- A signed number is printed as a text that denotes it. -/
theorem denotes_decimalInt (z : ℤ) : Denotes (decimalInt z) z := by
  unfold decimalInt
  by_cases hneg : z < 0
  · refine .inr ⟨decimal z.natAbs, if_pos hneg, numeric_decimal _, ?_⟩
    rw [decimalValue_decimal]
    omega
  · rw [if_neg hneg]
    refine .inl ⟨numeric_decimal _, ?_⟩
    rw [decimalValue_decimal]
    omega

/-- A text denotes one number at most. -/
theorem Denotes.unique {text : List UInt8} {z z' : ℤ} (h : Denotes text z)
    (h' : Denotes text z') : z = z' := by
  have hminus : ∀ digits, ¬ Numeric (45 :: digits) := fun digits h =>
    absurd (h.2 45 List.mem_cons_self) (by decide)
  rcases h with ⟨hdigits, rfl⟩ | ⟨digits, rfl, -, rfl⟩ <;>
    rcases h' with ⟨hdigits', rfl⟩ | ⟨digits', heq, -, rfl⟩
  · rfl
  · exact absurd (heq ▸ hdigits) (hminus _)
  · exact absurd hdigits' (hminus _)
  · rw [(List.cons.inj heq).2]

/-- A printed signed number can be read back. -/
theorem decimalInt_injective {z z' : ℤ} (h : decimalInt z = decimalInt z') : z = z' :=
  (denotes_decimalInt z).unique (h ▸ denotes_decimalInt z')

/-! ## Printing words and lines -/

/-- A text without spaces. It may be a word or a part of one. -/
def Solid (text : List UInt8) : Prop := ∀ byte ∈ text, isSpace byte = false

instance (text : List UInt8) : Decidable (Solid text) :=
  List.decidableBAll (fun byte => isSpace byte = false) text

theorem Solid.append {text more : List UInt8} (h : Solid text) (h' : Solid more) :
    Solid (text ++ more) := fun byte hbyte =>
  (List.mem_append.mp hbyte).elim (h byte) (h' byte)

/-- Digits are no spaces. -/
theorem Numeric.solid {text : List UInt8} (h : Numeric text) : Solid text := by
  intro byte hbyte
  have hdigit := h.2 byte hbyte
  rw [isDigit, Bool.and_eq_true, decide_eq_true_eq, decide_eq_true_eq, UInt8.le_iff_toNat_le,
    UInt8.le_iff_toNat_le] at hdigit
  have hlow : 48 ≤ byte.toNat := hdigit.1
  rw [isSpace, Bool.or_eq_false_iff, Bool.and_eq_false_iff, decide_eq_false_iff_not,
    decide_eq_false_iff_not, decide_eq_false_iff_not, UInt8.le_iff_toNat_le,
    UInt8.le_iff_toNat_le, ← UInt8.toNat_inj]
  refine ⟨fun heq => ?_, .inr fun hle => ?_⟩
  · have hspace : byte.toNat = 32 := heq
    omega
  · have hcontrol : byte.toNat ≤ 13 := hle
    omega

theorem solid_decimal (n : ℕ) : Solid (decimal n) := (numeric_decimal n).solid

theorem solid_decimalInt (z : ℤ) : Solid (decimalInt z) := by
  unfold decimalInt
  split
  · have hminus : Solid [45] := by decide
    exact hminus.append (solid_decimal _)
  · exact solid_decimal _

/-- Words one after the other, with a space in front of each but the first. -/
def spaced : List (List UInt8) → List UInt8
  | [] => []
  | word :: more => word ++ more.flatMap fun next => 32 :: next

/-- The words of a text that was put together from them. -/
theorem words_spaced {printed : List (List UInt8)} (hsolid : ∀ word ∈ printed, Solid word)
    (hsome : ∀ word ∈ printed, word ≠ []) : words (spaced printed) = printed := by
  have hmore : ∀ more : List (List UInt8), (∀ word ∈ more, Solid word) →
      (∀ word ∈ more, word ≠ []) → words (more.flatMap fun next => 32 :: next) = more := by
    intro more hsolid hsome
    induction more with
    | nil => rfl
    | cons word more ih =>
      rw [List.forall_mem_cons] at hsolid hsome
      rw [List.flatMap_cons, List.cons_append, words_cons_of_space rfl,
        words_append hsome.1 hsolid.1, ih hsolid.2 hsome.2]
      cases more <;> simp [isSpace]
  cases printed with
  | nil => rfl
  | cons word more =>
    rw [List.forall_mem_cons] at hsolid hsome
    rw [spaced, words_append hsome.1 hsolid.1, hmore more hsolid.2 hsome.2]
    cases more <;> simp [isSpace]

/-- The lines of a text in which every line is ended. -/
theorem lines_flatMap {printed : List (List UInt8)} (h : ∀ line ∈ printed, newline ∉ line) :
    lines (printed.flatMap fun line => line ++ [newline]) = printed := by
  have hline : ∀ line more : List UInt8, newline ∉ line →
      lines (line ++ newline :: more) = line :: lines more := by
    intro line more hnone
    induction line with
    | nil => simp [lines]
    | cons byte line ih =>
      rw [List.mem_cons, not_or] at hnone
      rw [List.cons_append, lines, if_neg (Ne.symm hnone.1), ih hnone.2]
  induction printed with
  | nil => rfl
  | cons line printed ih =>
    rw [List.forall_mem_cons] at h
    rw [List.flatMap_cons, List.append_assoc, List.singleton_append, hline _ _ h.1, ih h.2]

/-- Words do not end a line. -/
theorem newline_notMem_spaced {printed : List (List UInt8)}
    (hsolid : ∀ word ∈ printed, Solid word) : newline ∉ spaced printed := by
  have hnone : ∀ word ∈ printed, newline ∉ word := fun word hword hmem =>
    absurd (hsolid word hword newline hmem) (by decide)
  intro hnewline
  cases printed with
  | nil => cases hnewline
  | cons first more =>
    rcases List.mem_append.mp hnewline with hfirst | hmore
    · exact hnone first List.mem_cons_self hfirst
    · obtain ⟨next, hnext, hmem⟩ := List.mem_flatMap.mp hmore
      rcases List.mem_cons.mp hmem with hspace | hin
      · exact absurd hspace (by decide)
      · exact hnone next (List.mem_cons_of_mem _ hnext) hin

/-- Rows of words that are printed as lines can be read back. -/
theorem words_lines {rows : List (List (List UInt8))}
    (hsolid : ∀ row ∈ rows, ∀ word ∈ row, Solid word)
    (hsome : ∀ row ∈ rows, ∀ word ∈ row, word ≠ []) :
    (lines (rows.flatMap fun row => spaced row ++ [newline])).map words = rows := by
  have hlines := @lines_flatMap (rows.map spaced) fun line hline => by
    obtain ⟨row, hrow, rfl⟩ := List.mem_map.mp hline
    exact newline_notMem_spaced (hsolid row hrow)
  rw [List.flatMap_map] at hlines
  rw [hlines, List.map_map]
  refine (List.map_congr_left fun row hrow => ?_).trans (List.map_id _)
  exact words_spaced (hsolid row hrow) (hsome row hrow)

end Text
