import Mathlib.Data.List.Basic
import Mathlib.Data.Nat.Notation

/-!
# Framed logs

A framed log is a string of items, each found by looking at the front of what is
left. `front` says what is there; `Parses` walks over the whole string. Every string
has exactly one parse when each item takes up space, and an item put in front of a
parsed string is parsed first.
-/

namespace Framing

/-- What is found at the front of the unread input. -/
inductive Front (σ ρ ε : Type*) where
  /-- Nothing is left. -/
  | done
  /-- What is left is no item. -/
  | stop (reason : ε)
  /-- An item of the given size, after which the parser is in another state. -/
  | item (value : ρ) (next : σ) (size : ℕ)

variable {α σ ρ ε : Type*}

/-- The walk over the input: the items found, the size of their frames, and why the
walk stopped, if not at the end. The size may exceed the length of the input when the
last frame is cut short. -/
inductive Parses (front : σ → List α → Front σ ρ ε) :
    σ → List α → List ρ → ℕ → Option ε → Prop where
  | done {s : σ} {input : List α} (hfront : front s input = .done) :
    Parses front s input [] 0 none
  | stop {s : σ} {input : List α} {reason : ε} (hfront : front s input = .stop reason) :
    Parses front s input [] 0 (some reason)
  | item {s next : σ} {input : List α} {value : ρ} {size : ℕ} {values : List ρ} {rest : ℕ}
    {ending : Option ε} (hfront : front s input = .item value next size)
    (hrest : Parses front next (input.drop size) values rest ending) :
    Parses front s input (value :: values) (size + rest) ending

namespace Parses

variable {front : σ → List α → Front σ ρ ε}

/-- Every input is parsed when every item takes up space of a nonempty input. -/
theorem exists_of_progress
    (hprogress : ∀ s input value next size, front s input = .item value next size →
      0 < size ∧ input ≠ []) (s : σ) (input : List α) :
    ∃ values size ending, Parses front s input values size ending := by
  induction hn : input.length using Nat.strongRecOn generalizing s input with
  | _ n ih =>
    cases hfront : front s input with
    | done => exact ⟨_, _, _, .done hfront⟩
    | stop reason => exact ⟨_, _, _, .stop hfront⟩
    | item value next size =>
      obtain ⟨hsize, hne⟩ := hprogress s input value next size hfront
      have hpos := List.length_pos_iff.mpr hne
      obtain ⟨values, rest, ending, hrest⟩ := ih (input.drop size).length
        (by rw [List.length_drop]; omega) next (input.drop size) rfl
      exact ⟨_, _, _, .item hfront hrest⟩

/-- A parse finds at most as many items as the input is long. -/
theorem length_le
    (hprogress : ∀ s input value next size, front s input = .item value next size →
      0 < size ∧ input ≠ []) {s : σ} {input : List α} {values : List ρ} {size : ℕ}
    {ending : Option ε} (h : Parses front s input values size ending) :
    values.length ≤ input.length := by
  induction h with
  | done => exact Nat.zero_le _
  | stop => exact Nat.zero_le _
  | item hfront _ ih =>
    obtain ⟨hsize, hne⟩ := hprogress _ _ _ _ _ hfront
    have hpos := List.length_pos_iff.mpr hne
    rw [List.length_drop] at ih
    rw [List.length_cons]
    omega

/-- A frame in front of a parsed input is parsed first. -/
theorem prepend {s next : σ} {frame input : List α} {value : ρ} {values : List ρ} {size : ℕ}
    {ending : Option ε} (hfront : front s (frame ++ input) = .item value next frame.length)
    (h : Parses front next input values size ending) :
    Parses front s (frame ++ input) (value :: values) (frame.length + size) ending := by
  refine .item hfront ?_
  rwa [List.drop_left]

/-- Items that are followed by something else lie inside the input. -/
theorem size_le (hempty : ∀ s, front s [] = .done) {s : σ} {input : List α} {values : List ρ}
    {size : ℕ} {reason : ε} (h : Parses front s input values size (some reason)) :
    size ≤ input.length := by
  generalize hending : some reason = ending at h
  induction h with
  | done => exact Nat.zero_le _
  | stop => exact Nat.zero_le _
  | @item s next input value size values rest ending hfront hrest ih =>
    have hle := ih hending
    rw [List.length_drop] at hle
    by_contra hpast
    have hnil : input.drop size = [] := List.drop_eq_nil_of_le (by omega)
    rw [hnil, ← hending] at hrest
    cases hrest with
    | stop hstop => exact absurd ((hempty next).symm.trans hstop) (by simp)
    | item hitem => exact absurd ((hempty next).symm.trans hitem) (by simp)

/-- Cutting the input off where the items end leaves the same items, if an item does not
depend on what is behind it. -/
theorem truncate (hempty : ∀ s, front s [] = .done)
    (hlocal : ∀ s input value next size count, front s input = .item value next size →
      size ≤ count → front s (input.take count) = .item value next size)
    {s : σ} {input : List α} {values : List ρ} {size : ℕ} {ending : Option ε}
    (h : Parses front s input values size ending) :
    Parses front s (input.take size) values size none := by
  induction h with
  | done => exact .done (hempty _)
  | stop => exact .done (hempty _)
  | @item s next input value size values rest ending hfront _ ih =>
    refine .item (hlocal _ _ _ _ _ _ hfront (Nat.le_add_right _ _)) ?_
    rwa [List.drop_take, Nat.add_sub_cancel_left]

end Parses

end Framing
