import Mathlib.Data.Nat.Notation
import Mathlib.Order.Defs.LinearOrder

/-!
# 64-bit integers

The comparison operators form linear orders, and a signed subtraction is
exact when its result is between zero and the minuend. These are the only facts
about signed arithmetic that a counter which only decreases needs.
-/

namespace FixedWidth

/-- `Int64` is linearly ordered by its comparison operators. -/
instance linearOrderInt64 : LinearOrder Int64 where
  le_refl a := by grind
  le_trans a b c := by grind
  lt_iff_le_not_ge a b := by grind
  le_antisymm a b := by grind
  le_total a b := by grind
  toDecidableLE := inferInstance
  toDecidableEq := inferInstance
  toDecidableLT := inferInstance
  compare_eq_compareOfLessAndEq := by intros; rfl

/-- `UInt64` is linearly ordered by its comparison operators. -/
instance linearOrderUInt64 : LinearOrder UInt64 where
  le_refl a := by grind
  le_trans a b c := by grind
  lt_iff_le_not_ge a b := by grind
  le_antisymm a b := by grind
  le_total a b := by grind
  toDecidableLE := inferInstance
  toDecidableEq := inferInstance
  toDecidableLT := inferInstance
  compare_eq_compareOfLessAndEq := by intros; rfl

/-- The subtraction `a - b` does not leave the range of `Int64`. -/
def SubExact (a b : Int64) : Prop := (a - b).toInt = a.toInt - b.toInt

instance (a b : Int64) : Decidable (SubExact a b) := inferInstanceAs (Decidable (_ = _))

/-- Positivity of a machine integer is positivity of its value. -/
theorem pos_iff {a : Int64} : 0 < a ↔ 0 < a.toInt := by
  rw [Int64.lt_iff_toInt_lt, Int64.toInt_zero]

/-- A machine integer is zero exactly when its value is. -/
theorem eq_zero_iff {a : Int64} : a = 0 ↔ a.toInt = 0 := by
  rw [← Int64.toInt_inj, Int64.toInt_zero]

/-- The value of a minimum is the minimum of the values. -/
theorem toInt_min (a b : Int64) : (min a b).toInt = min a.toInt b.toInt := by
  rcases le_total a b with h | h
  · have hle := Int64.le_iff_toInt_le.mp h
    rw [min_eq_left h]
    omega
  · have hle := Int64.le_iff_toInt_le.mp h
    rw [min_eq_right h]
    omega

/-- A difference of values in range is the difference of the integers. -/
theorem toInt_sub_of_le {a b : Int64} (hb : 0 ≤ b.toInt) (hab : b.toInt ≤ a.toInt) :
    (a - b).toInt = a.toInt - b.toInt := by
  have hlt := a.toInt_lt
  rw [Int64.toInt_sub, Int.bmod_eq_of_le] <;> omega

/-- A sum of values in range is the sum of the integers when it stays in range. -/
theorem toInt_add_of_le {a b : Int64} (ha : 0 ≤ a.toInt) (hb : 0 ≤ b.toInt)
    (hab : a.toInt + b.toInt ≤ Int64.maxValue.toInt) : (a + b).toInt = a.toInt + b.toInt := by
  rw [Int64.toInt_maxValue] at hab
  rw [Int64.toInt_add, Int.bmod_eq_of_le] <;> omega

/-! ## Counters -/

/-- The numbers that a counter gives out from `first` on. -/
def numbersFrom (first : UInt64) (count : ℕ) : List UInt64 :=
  (List.range count).map fun i => first + .ofNat i

/-- The last number is the one behind the others. -/
theorem numbersFrom_succ (first : UInt64) (count : ℕ) :
    numbersFrom first (count + 1) = numbersFrom first count ++ [first + .ofNat count] := by
  rw [numbersFrom, List.range_succ, List.map_append, List.map_singleton, numbersFrom]

/-- A counter that has given out one more number. -/
theorem add_ofNat_succ (first : UInt64) (count : ℕ) :
    first + .ofNat (count + 1) = first + .ofNat count + 1 := by
  rw [UInt64.ofNat_add, UInt64.ofNat_one, UInt64.add_assoc]

/-- A counter that starts one later. -/
theorem succ_add_ofNat (first : UInt64) (count : ℕ) :
    first + 1 + .ofNat count = first + .ofNat (count + 1) := by
  rw [add_ofNat_succ, UInt64.add_assoc, UInt64.add_comm 1, ← UInt64.add_assoc]

/-- The first number comes before the others. -/
theorem numbersFrom_succ' (first : UInt64) (count : ℕ) :
    numbersFrom first (count + 1) = first :: numbersFrom (first + 1) count := by
  induction count generalizing first with
  | zero => simp [numbersFrom]
  | succ count ih =>
    have hnext : first + 1 + .ofNat count = first + .ofNat (count + 1) := by
      rw [add_ofNat_succ, UInt64.add_assoc, UInt64.add_comm 1, ← UInt64.add_assoc]
    rw [numbersFrom_succ, ih, numbersFrom_succ, hnext, List.cons_append]

end FixedWidth
