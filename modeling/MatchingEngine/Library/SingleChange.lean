import Mathlib.Data.List.Basic

/-!
# Lists that differ in one place

`DiffersAt i xs ys` says that two lists agree everywhere but at position `i`. Such a
change of a concatenation is a change of exactly one of its parts, and a fold whose
steps are injective tells the two lists apart. Lists of one length that differ only in
a burst are equal before it and behind it.
-/

/-- The lists agree everywhere but at position `i`, where they do not. -/
inductive DiffersAt {α : Type*} : ℕ → List α → List α → Prop where
  /-- The change is at the front. -/
  | head {x y : α} (xs : List α) (hne : x ≠ y) : DiffersAt 0 (x :: xs) (y :: xs)
  /-- The change is further behind. -/
  | tail {i : ℕ} {xs ys : List α} (x : α) (h : DiffersAt i xs ys) :
    DiffersAt (i + 1) (x :: xs) (x :: ys)

namespace DiffersAt

variable {α σ : Type*}

/-- Replacing an element by another one is a change in one place. -/
theorem set {xs : List α} {i : ℕ} {y : α} (hi : i < xs.length) (hne : y ≠ xs[i]) :
    DiffersAt i xs (xs.set i y) := by
  induction xs generalizing i with
  | nil => cases hi
  | cons x xs ih =>
    cases i with
    | zero => exact .head xs hne.symm
    | succ i => exact .tail x (ih (Nat.lt_of_succ_lt_succ hi) hne)

/-- A change in one place keeps the length. -/
theorem length_eq {i : ℕ} {xs ys : List α} (h : DiffersAt i xs ys) :
    xs.length = ys.length := by
  induction h with
  | head => rfl
  | tail _ _ ih => rw [List.length_cons, List.length_cons, ih]

/-- A change is not an identity. -/
theorem ne {i : ℕ} {xs ys : List α} (h : DiffersAt i xs ys) : xs ≠ ys := by
  induction h with
  | head _ hne => exact fun heq => hne (List.cons.inj heq).1
  | tail _ _ ih => exact fun heq => ih (List.cons.inj heq).2

/-- The place is inside the list. -/
theorem lt_length {i : ℕ} {xs ys : List α} (h : DiffersAt i xs ys) : i < xs.length := by
  induction h with
  | head => exact Nat.succ_pos _
  | tail _ _ ih => exact Nat.succ_lt_succ ih

/-- A common list behind the change changes nothing. -/
theorem append_right {i : ℕ} {xs ys : List α} (h : DiffersAt i xs ys) (zs : List α) :
    DiffersAt i (xs ++ zs) (ys ++ zs) := by
  induction h with
  | head xs hne => exact .head (xs ++ zs) hne
  | tail x _ ih => exact .tail x ih

/-- A common list before the change moves it. -/
theorem append_left {i : ℕ} {xs ys : List α} (h : DiffersAt i xs ys) (zs : List α) :
    DiffersAt (zs.length + i) (zs ++ xs) (zs ++ ys) := by
  induction zs with
  | nil => simpa only [List.length_nil, Nat.zero_add, List.nil_append] using h
  | cons z zs ih =>
    rw [List.length_cons, Nat.add_right_comm]
    exact .tail z ih

/-- A change of a concatenation is a change of its first part or of its second
part, and the other part is untouched. -/
theorem append_cases {i : ℕ} {xs xs' : List α} {zs : List α}
    (h : DiffersAt i (xs ++ xs') zs) :
    (∃ ys, DiffersAt i xs ys ∧ zs = ys ++ xs') ∨
      xs.length ≤ i ∧ ∃ ys', DiffersAt (i - xs.length) xs' ys' ∧ zs = xs ++ ys' := by
  induction xs generalizing i zs with
  | nil => exact .inr ⟨Nat.zero_le _, zs, h, rfl⟩
  | cons x xs ih =>
    cases h with
    | head _ hne => exact .inl ⟨_, .head xs hne, rfl⟩
    | @tail i _ ys _ h =>
      rcases ih h with ⟨ys, hys, rfl⟩ | ⟨hle, ys', hys', rfl⟩
      · exact .inl ⟨x :: ys, .tail x hys, rfl⟩
      · refine .inr ⟨Nat.succ_le_succ hle, ys', ?_, rfl⟩
        rwa [List.length_cons, Nat.add_sub_add_right]

/-- A fold from different states over one list ends in different states, when every
step is injective in the state. -/
theorem foldl_ne_of_state_ne {step : σ → α → σ}
    (hstate : ∀ a, Function.Injective fun s => step s a) (xs : List α) {s t : σ}
    (hne : s ≠ t) : xs.foldl step s ≠ xs.foldl step t := by
  induction xs generalizing s t with
  | nil => exact hne
  | cons x xs ih => exact ih fun heq => hne (hstate x heq)

/-- A fold tells lists apart that differ in one place, when every step is injective
in the state and in the element. -/
theorem foldl_ne {step : σ → α → σ} (hstate : ∀ a, Function.Injective fun s => step s a)
    (helement : ∀ s, Function.Injective (step s)) {i : ℕ} {xs ys : List α}
    (h : DiffersAt i xs ys) (s : σ) : xs.foldl step s ≠ ys.foldl step s := by
  induction h generalizing s with
  | head xs hne => exact foldl_ne_of_state_ne hstate xs fun heq => hne (helement s heq)
  | tail x _ ih => exact ih (step s x)

end DiffersAt

/-- Lists of one length that differ only within `count` positions from `start` on are
the same before these and behind them. -/
theorem exists_middle_of_burst {α : Type*} {xs ys : List α} {start count : ℕ}
    (hlength : xs.length = ys.length)
    (hwithin : ∀ i, xs[i]? ≠ ys[i]? → start ≤ i ∧ i < start + count) :
    ∃ front xs' ys' back, xs = front ++ (xs' ++ back) ∧ ys = front ++ (ys' ++ back) ∧
      xs'.length = ys'.length ∧ xs'.length ≤ count := by
  have hsame : ∀ i, ¬ (start ≤ i ∧ i < start + count) → xs[i]? = ys[i]? := fun i hout =>
    Classical.not_not.mp fun hi => hout (hwithin i hi)
  have hfront : xs.take start = ys.take start := by
    refine List.ext_getElem? fun i => ?_
    rw [List.getElem?_take, List.getElem?_take]
    split
    · exact hsame i (by omega)
    · rfl
  have hback : xs.drop (start + count) = ys.drop (start + count) := by
    refine List.ext_getElem? fun i => ?_
    rw [List.getElem?_drop, List.getElem?_drop]
    exact hsame _ (by omega)
  have hsplit : ∀ zs : List α, zs =
      zs.take start ++ ((zs.drop start).take count ++ zs.drop (start + count)) := by
    intro zs
    rw [← List.drop_drop, List.take_append_drop, List.take_append_drop]
  refine ⟨xs.take start, (xs.drop start).take count, (ys.drop start).take count,
    xs.drop (start + count), hsplit xs, ?_, ?_, List.length_take_le _ _⟩
  · rw [hfront, hback]
    exact hsplit ys
  · rw [List.length_take, List.length_take, List.length_drop, List.length_drop, hlength]
