import Mathlib.Data.List.SplitLengths
import Mathlib.Data.Nat.Notation
import Mathlib.Tactic.Ring

/-!
# Little-endian records

A number as a fixed number of bytes, least significant byte first, and a list of
numbers as the bytes of consecutive fields. Packing and unpacking a record of
fields are inverse in both directions: on values that fit their fields and on byte
strings of the record's size.
-/

namespace LittleEndian

/-- The `width` low bytes of `n`. -/
def encode : ℕ → ℕ → List UInt8
  | 0, _ => []
  | width + 1, n => UInt8.ofNat n :: encode width (n / 256)

/-- The number with the given bytes. -/
def decode : List UInt8 → ℕ
  | [] => 0
  | byte :: bytes => byte.toNat + 256 * decode bytes

/-- The bytes of consecutive fields. -/
def pack (widths values : List ℕ) : List UInt8 :=
  (List.zipWith encode widths values).flatten

/-- The values of consecutive fields. -/
def unpack (widths : List ℕ) (bytes : List UInt8) : List ℕ :=
  (widths.splitLengths bytes).map decode

@[simp] theorem encode_length (width n : ℕ) : (encode width n).length = width := by
  induction width generalizing n with
  | zero => rfl
  | succ width ih => rw [encode, List.length_cons, ih]

/-- Decoding the low bytes of a number keeps its low part. -/
theorem decode_encode (width n : ℕ) : decode (encode width n) = n % 256 ^ width := by
  induction width generalizing n with
  | zero => rw [encode, decode, pow_zero, Nat.mod_one]
  | succ width ih =>
    have hbyte : (UInt8.ofNat n).toNat = n % 256 := UInt8.toNat_ofNat'
    rw [encode, decode, ih, hbyte, pow_succ', Nat.mod_mul]

/-- A number that fits its field survives. -/
theorem decode_encode_of_lt {width n : ℕ} (h : n < 256 ^ width) :
    decode (encode width n) = n := by
  rw [decode_encode, Nat.mod_eq_of_lt h]

/-- A byte string is the encoding of its number. -/
theorem encode_decode (bytes : List UInt8) : encode bytes.length (decode bytes) = bytes := by
  induction bytes with
  | nil => rfl
  | cons byte bytes ih =>
    have hbyte := byte.toNat_lt
    rw [List.length_cons, decode, encode]
    congr 1
    · rw [← UInt8.toNat_inj, UInt8.toNat_ofNat', Nat.add_mul_mod_self_left,
        Nat.mod_eq_of_lt hbyte]
    · rw [Nat.add_mul_div_left _ _ (by decide), Nat.div_eq_of_lt hbyte, Nat.zero_add, ih]

/-- A byte string is a number below the next power. -/
theorem decode_lt (bytes : List UInt8) : decode bytes < 256 ^ bytes.length := by
  induction bytes with
  | nil => exact Nat.one_pos
  | cons byte bytes ih =>
    have hbyte := byte.toNat_lt
    rw [decode, List.length_cons, pow_succ]
    omega

/-- Numbers that fit the field have different encodings when they differ. -/
theorem encode_inj {width m n : ℕ} (hm : m < 256 ^ width) (hn : n < 256 ^ width) :
    encode width m = encode width n ↔ m = n := by
  refine ⟨fun h => ?_, fun h => h ▸ rfl⟩
  rw [← decode_encode_of_lt hm, h, decode_encode_of_lt hn]

@[simp] theorem pack_nil (values : List ℕ) : pack [] values = [] := by
  rw [pack, List.zipWith_nil_left, List.flatten_nil]

@[simp] theorem pack_cons (width value : ℕ) (widths values : List ℕ) :
    pack (width :: widths) (value :: values) = encode width value ++ pack widths values := by
  rw [pack, List.zipWith_cons_cons, List.flatten_cons, pack]

@[simp] theorem unpack_nil (bytes : List UInt8) : unpack [] bytes = [] := rfl

@[simp] theorem unpack_cons (width : ℕ) (widths : List ℕ) (bytes : List UInt8) :
    unpack (width :: widths) bytes =
      decode (bytes.take width) :: unpack widths (bytes.drop width) := by
  rw [unpack, List.splitLengths_cons, List.map_cons, unpack]

/-- A record with a value for every field has the sum of the widths as its size. -/
theorem pack_length {widths values : List ℕ} (h : values.length = widths.length) :
    (pack widths values).length = widths.sum := by
  induction widths generalizing values with
  | nil => rw [pack_nil, List.length_nil, List.sum_nil]
  | cons width widths ih =>
    cases values with
    | nil => cases h
    | cons value values =>
      rw [pack_cons, List.length_append, encode_length, ih (Nat.succ.inj h), List.sum_cons]

/-- Values that fit their fields survive packing. -/
theorem unpack_pack {widths values : List ℕ}
    (h : List.Forall₂ (fun width value => value < 256 ^ width) widths values) :
    unpack widths (pack widths values) = values := by
  induction h with
  | nil => rfl
  | @cons width value widths values hfits _ ih =>
    rw [pack_cons, unpack_cons, List.take_left' (encode_length width value),
      List.drop_left' (encode_length width value), decode_encode_of_lt hfits, ih]

/-- A byte string of the record's size survives unpacking. -/
theorem pack_unpack {widths : List ℕ} {bytes : List UInt8} (h : bytes.length = widths.sum) :
    pack widths (unpack widths bytes) = bytes := by
  induction widths generalizing bytes with
  | nil => rw [unpack_nil, pack_nil, List.length_eq_zero_iff.mp h]
  | cons width widths ih =>
    rw [List.sum_cons] at h
    have htake : (bytes.take width).length = width := by
      rw [List.length_take]
      omega
    have hdrop : (bytes.drop width).length = widths.sum := by
      rw [List.length_drop]
      omega
    have hfirst := encode_decode (bytes.take width)
    rw [htake] at hfirst
    rw [unpack_cons, pack_cons, hfirst, ih hdrop, List.take_append_drop]

/-- Unpacked values fit their fields. -/
theorem unpack_fits {widths : List ℕ} {bytes : List UInt8} (h : bytes.length = widths.sum) :
    List.Forall₂ (fun width value => value < 256 ^ width) widths (unpack widths bytes) := by
  induction widths generalizing bytes with
  | nil => exact List.Forall₂.nil
  | cons width widths ih =>
    rw [List.sum_cons] at h
    have htake : (bytes.take width).length = width := by
      rw [List.length_take]
      omega
    rw [unpack_cons]
    refine List.Forall₂.cons ?_ (ih ?_)
    · have hlt := decode_lt (bytes.take width)
      rwa [htake] at hlt
    · rw [List.length_drop]
      omega

end LittleEndian
