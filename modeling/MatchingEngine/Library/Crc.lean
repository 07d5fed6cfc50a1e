import MatchingEngine.Library.SingleChange
import Mathlib.Logic.Function.Iterate
import Mathlib.Data.Nat.Notation

/-!
# Reflected cyclic redundancy checks

The shift register of a reflected check of any width: a bit step shifts the register
down and adds the polynomial when a one falls out, and a byte is added to the low end
before eight bit steps. When the top bit of the polynomial is set, the bit that fell
out can be read off the new register, so no step loses information.

The steps are linear, and a register whose low bits are clear is only shifted. So a
message no longer than the register can be added to it at once, and two such messages
that differ leave different registers.
-/

namespace Crc

variable {width : ℕ}

/-- One bit step of the register. -/
def bitStep (polynomial register : BitVec width) : BitVec width :=
  (register >>> 1) ^^^ if register.getLsbD 0 then polynomial else 0

/-- One byte enters the register. -/
def byteStep (polynomial register : BitVec width) (byte : UInt8) : BitVec width :=
  (bitStep polynomial)^[8] (register ^^^ byte.toBitVec.setWidth width)

/-- The register after a message. -/
def remainder (polynomial register : BitVec width) (bytes : List UInt8) : BitVec width :=
  bytes.foldl (byteStep polynomial) register

/-- The bit that falls out of the register reappears at its top. -/
theorem bitStep_msb {polynomial : BitVec width} (htop : polynomial.msb = true)
    (register : BitVec width) :
    (bitStep polynomial register).msb = register.getLsbD 0 := by
  unfold bitStep
  rw [BitVec.msb_xor, BitVec.msb_ushiftRight]
  cases h : register.getLsbD 0
  · simp
  · simp [htop]

/-- A bit step loses no information. -/
theorem bitStep_injective {polynomial : BitVec width} (htop : polynomial.msb = true) :
    Function.Injective (bitStep polynomial) := by
  intro a b h
  have hlow : a.getLsbD 0 = b.getLsbD 0 := by
    rw [← bitStep_msb htop a, h, bitStep_msb htop b]
  unfold bitStep at h
  rw [hlow] at h
  have hshift : a >>> 1 = b >>> 1 := (BitVec.xor_left_inj _).mp h
  refine BitVec.eq_of_getLsbD_eq fun i _ => ?_
  cases i with
  | zero => exact hlow
  | succ i =>
    have hbit := congrArg (fun c => c.getLsbD i) hshift
    simpa only [BitVec.getLsbD_ushiftRight, Nat.add_comm 1 i] using hbit

/-- A byte step is injective in the register. -/
theorem byteStep_injective {polynomial : BitVec width} (htop : polynomial.msb = true)
    (byte : UInt8) : Function.Injective fun register => byteStep polynomial register byte := by
  intro a b h
  have hxor := (bitStep_injective htop).iterate 8 h
  exact (BitVec.xor_left_inj _).mp hxor

/-- A byte step is injective in the byte. -/
theorem byteStep_injective_byte {polynomial : BitVec width} (htop : polynomial.msb = true)
    (hwidth : 8 ≤ width) (register : BitVec width) :
    Function.Injective (byteStep polynomial register) := by
  intro a b h
  have hxor := (bitStep_injective htop).iterate 8 h
  have hset := (BitVec.xor_right_inj _).mp hxor
  have hback := congrArg (BitVec.setWidth 8) hset
  rw [BitVec.setWidth_setWidth_of_le _ hwidth, BitVec.setWidth_setWidth_of_le _ hwidth,
    BitVec.setWidth_eq, BitVec.setWidth_eq] at hback
  exact UInt8.toBitVec_inj.mp hback

/-- A message and the message with one byte changed leave different remainders. -/
theorem remainder_ne_of_differsAt {polynomial : BitVec width} (htop : polynomial.msb = true)
    (hwidth : 8 ≤ width) (register : BitVec width) {i : ℕ} {xs ys : List UInt8}
    (h : DiffersAt i xs ys) : remainder polynomial register xs ≠ remainder polynomial register ys :=
  h.foldl_ne (byteStep_injective htop) (byteStep_injective_byte htop hwidth) register

/-! ## Bursts -/

/-- A bit step is linear. -/
theorem bitStep_xor (polynomial a b : BitVec width) :
    bitStep polynomial (a ^^^ b) = bitStep polynomial a ^^^ bitStep polynomial b := by
  have hmask : (if (a ^^^ b).getLsbD 0 then polynomial else 0) =
      (if a.getLsbD 0 then polynomial else 0) ^^^ if b.getLsbD 0 then polynomial else 0 := by
    rw [BitVec.getLsbD_xor]
    cases a.getLsbD 0 <;> cases b.getLsbD 0 <;> simp
  unfold bitStep
  rw [BitVec.ushiftRight_xor_distrib, hmask]
  ac_rfl

/-- So are many of them. -/
theorem iterate_bitStep_xor (polynomial : BitVec width) (n : ℕ) (a b : BitVec width) :
    (bitStep polynomial)^[n] (a ^^^ b) =
      (bitStep polynomial)^[n] a ^^^ (bitStep polynomial)^[n] b := by
  induction n generalizing a b with
  | zero => rfl
  | succ n ih =>
    rw [Function.iterate_succ_apply, Function.iterate_succ_apply, Function.iterate_succ_apply,
      bitStep_xor, ih]

/-- What lies above clear low bits only moves down. -/
theorem iterate_bitStep_shiftLeft (polynomial : BitVec width) (n : ℕ) {a : BitVec width}
    (hclear : ∀ i, width ≤ i + n → a.getLsbD i = false) :
    (bitStep polynomial)^[n] (a <<< n) = a := by
  induction n with
  | zero => exact BitVec.shiftLeft_zero a
  | succ n ih =>
    have hstep : bitStep polynomial (a <<< (n + 1)) = a <<< n := by
      have hlow : (a <<< (n + 1)).getLsbD 0 = false := by simp
      have hdown : a <<< (n + 1) >>> 1 = a <<< n := by
        refine BitVec.eq_of_getLsbD_eq fun i hi => ?_
        rw [BitVec.getLsbD_ushiftRight, BitVec.getLsbD_shiftLeft, BitVec.getLsbD_shiftLeft,
          Nat.add_comm 1 i, Nat.add_sub_add_right]
        by_cases htop : i + 1 < width
        · simp [hi, htop]
        · simp [htop, hclear (i - n) (by omega)]
      unfold bitStep
      rw [hlow, hdown]
      exact BitVec.xor_zero
    rw [Function.iterate_succ_apply, hstep]
    exact ih fun i hi => hclear i (by omega)

/-- The bytes of a message as the register sees them: the first one lowest. -/
def window (width : ℕ) : List UInt8 → BitVec width
  | [] => 0
  | byte :: bytes => byte.toBitVec.setWidth width ^^^ window width bytes <<< 8

/-- A window has no bits above its bytes. -/
theorem getLsbD_window {bytes : List UInt8} {i : ℕ} (hi : 8 * bytes.length ≤ i) :
    (window width bytes).getLsbD i = false := by
  induction bytes generalizing i with
  | nil => exact BitVec.getLsbD_zero
  | cons byte bytes ih =>
    rw [List.length_cons] at hi
    have hbyte : (byte.toBitVec.setWidth width).getLsbD i = false := by
      rw [BitVec.getLsbD_setWidth, BitVec.getLsbD_of_ge _ _ (by omega), Bool.and_false]
    unfold window
    rw [BitVec.getLsbD_xor, hbyte, BitVec.getLsbD_shiftLeft, ih (by omega)]
    simp

/-- A window that fits into the register can be read back. -/
theorem window_inj {xs ys : List UInt8} (hlength : xs.length = ys.length)
    (hfits : 8 * xs.length ≤ width) (h : window width xs = window width ys) : xs = ys := by
  induction xs generalizing ys with
  | nil => exact (List.eq_nil_of_length_eq_zero hlength.symm).symm
  | cons x xs ih =>
    cases ys with
    | nil => cases hlength
    | cons y ys =>
      rw [List.length_cons] at hfits
      rw [List.length_cons, List.length_cons, Nat.add_right_cancel_iff] at hlength
      have hbit := fun i => congrArg (fun a => a.getLsbD i) h
      simp only [window, BitVec.getLsbD_xor, BitVec.getLsbD_setWidth,
        BitVec.getLsbD_shiftLeft] at hbit
      -- The low byte is the first one and the rest lies above it.
      have hfirst : x = y := by
        refine UInt8.toBitVec_inj.mp (BitVec.eq_of_getLsbD_eq fun i hi => ?_)
        simpa [hi, show i < width by omega] using hbit i
      have hrest : window width xs = window width ys := by
        refine BitVec.eq_of_getLsbD_eq fun i hi => ?_
        by_cases habove : 8 * xs.length ≤ i
        · rw [getLsbD_window habove, getLsbD_window (hlength ▸ habove)]
        · simpa [hfirst, show i + 8 < width by omega, show ¬ i + 8 < 8 by omega] using
            hbit (i + 8)
      rw [hfirst, ih hlength (by omega) hrest]

/-- A message that fits into the register can be added to it at once. -/
theorem remainder_eq_iterate (polynomial register : BitVec width) {bytes : List UInt8}
    (hfits : 8 * bytes.length ≤ width) :
    remainder polynomial register bytes =
      (bitStep polynomial)^[8 * bytes.length] (register ^^^ window width bytes) := by
  induction bytes generalizing register with
  | nil => exact (BitVec.xor_zero).symm
  | cons byte bytes ih =>
    rw [List.length_cons] at hfits
    have hmoves : (bitStep polynomial)^[8] (window width bytes <<< 8) = window width bytes :=
      iterate_bitStep_shiftLeft polynomial 8 fun i hi => getLsbD_window (by omega)
    calc remainder polynomial register (byte :: bytes)
        = (bitStep polynomial)^[8 * bytes.length]
            (byteStep polynomial register byte ^^^ window width bytes) := ih _ (by omega)
      _ = (bitStep polynomial)^[8 * bytes.length] ((bitStep polynomial)^[8]
            (register ^^^ window width (byte :: bytes))) := by
          unfold byteStep
          rw [window, ← BitVec.xor_assoc,
            iterate_bitStep_xor polynomial 8 _ (window width bytes <<< 8), hmoves]
      _ = (bitStep polynomial)^[8 * (byte :: bytes).length]
            (register ^^^ window width (byte :: bytes)) := by
          rw [List.length_cons, Nat.mul_succ, Function.iterate_add_apply]

/-- Two messages that fit into the register and differ leave different remainders. -/
theorem remainder_ne_of_fits {polynomial : BitVec width} (htop : polynomial.msb = true)
    (register : BitVec width) {xs ys : List UInt8} (hlength : xs.length = ys.length)
    (hne : xs ≠ ys) (hfits : 8 * xs.length ≤ width) :
    remainder polynomial register xs ≠ remainder polynomial register ys := by
  intro heq
  rw [remainder_eq_iterate _ _ hfits, remainder_eq_iterate _ _ (hlength ▸ hfits), hlength] at heq
  have hwindow := (bitStep_injective htop).iterate _ heq
  exact hne (window_inj hlength hfits ((BitVec.xor_right_inj _).mp hwindow))

/-- A change of no more bytes than the register holds leaves a different remainder,
wherever it is in the message. -/
theorem remainder_ne_of_burst {polynomial : BitVec width} (htop : polynomial.msb = true)
    (register : BitVec width) {xs ys : List UInt8} (hlength : xs.length = ys.length)
    (hne : xs ≠ ys) {start count : ℕ} (hfits : 8 * count ≤ width)
    (hwithin : ∀ i, xs[i]? ≠ ys[i]? → start ≤ i ∧ i < start + count) :
    remainder polynomial register xs ≠ remainder polynomial register ys := by
  obtain ⟨front, xs', ys', back, rfl, rfl, hmiddle, hcount⟩ :=
    exists_middle_of_burst hlength hwithin
  have hne' : xs' ≠ ys' := fun heq => hne (by rw [heq])
  unfold remainder
  rw [List.foldl_append, List.foldl_append, List.foldl_append, List.foldl_append]
  exact DiffersAt.foldl_ne_of_state_ne (byteStep_injective htop) back
    (remainder_ne_of_fits htop _ hmiddle hne' (by omega))

end Crc
