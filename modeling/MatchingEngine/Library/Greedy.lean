import Mathlib.Algebra.BigOperators.Group.List.Basic
import Mathlib.Algebra.Order.Group.Defs
import Mathlib.Data.List.TakeWhile
import Mathlib.Order.Lattice

/-!
# Serving a demand greedily

A demand walks along a list of items, each of which offers a quantity. It takes from
every item as much as it can use, until nothing of it is left. The result is the list
of its shares, in the order of the items. The rules of this file split the walk, and
say what a single share is and what the shares take in total.
-/

variable {ι M : Type*}

/-- What a demand took from one item, and what was left of the demand after that. -/
structure Share (ι M : Type*) where
  item : ι
  quantity : M
  left : M

/-! ## What is taken from one item -/

section

variable [AddCommMonoid M] [DecidableEq ι]

/-- What the shares take from an item. -/
def taken (shares : List (Share ι M)) (i : ι) : M :=
  (shares.map fun share => if share.item = i then share.quantity else 0).sum

variable {i : ι} {shares shares' : List (Share ι M)}

@[simp] theorem taken_nil : taken ([] : List (Share ι M)) i = 0 := rfl

theorem taken_cons (share : Share ι M) :
    taken (share :: shares) i = (if share.item = i then share.quantity else 0) + taken shares i :=
  List.sum_cons

theorem taken_append : taken (shares ++ shares') i = taken shares i + taken shares' i := by
  rw [taken, List.map_append, List.sum_append, taken, taken]

/-- Nothing is taken from an item without a share. -/
theorem taken_eq_zero (h : i ∉ shares.map Share.item) : taken shares i = 0 := by
  induction shares with
  | nil => rfl
  | cons share rest ih =>
    rw [List.map_cons, List.mem_cons, not_or] at h
    rw [taken_cons, if_neg (Ne.symm h.1), ih h.2, add_zero]

end

section

variable [AddCommGroup M] [LinearOrder M] (offer : ι → M)

/-- The shares of a demand that walks along the items. -/
def greedyShares : M → List ι → List (Share ι M)
  | _, [] => []
  | demand, i :: rest =>
      if 0 < demand then
        ⟨i, min demand (offer i), demand - min demand (offer i)⟩ ::
          greedyShares (demand - min demand (offer i)) rest
      else []

/-- What is left of a demand behind the items. -/
def greedyLeft : M → List ι → M
  | demand, [] => demand
  | demand, i :: rest =>
      if 0 < demand then greedyLeft (demand - min demand (offer i)) rest else demand

variable {offer} {demand : M} {i : ι} {items items' : List ι}

/-! ## The walk -/

@[simp] theorem greedyShares_nil : greedyShares offer demand [] = [] := rfl

@[simp] theorem greedyLeft_nil : greedyLeft offer demand [] = demand := rfl

theorem greedyShares_cons (h : 0 < demand) :
    greedyShares offer demand (i :: items) =
      ⟨i, min demand (offer i), demand - min demand (offer i)⟩ ::
        greedyShares offer (demand - min demand (offer i)) items := if_pos h

theorem greedyLeft_cons (h : 0 < demand) :
    greedyLeft offer demand (i :: items) =
      greedyLeft offer (demand - min demand (offer i)) items := if_pos h

/-- A demand that is satisfied takes nothing. -/
theorem greedyShares_of_le (h : demand ≤ 0) : greedyShares offer demand items = [] := by
  cases items with
  | nil => rfl
  | cons i rest => exact if_neg (not_lt.mpr h)

/-- A demand that is satisfied stays as it is. -/
theorem greedyLeft_of_le (h : demand ≤ 0) : greedyLeft offer demand items = demand := by
  cases items with
  | nil => rfl
  | cons i rest => exact if_neg (not_lt.mpr h)

/-- Behind the first items, what is left of the demand walks along the others. -/
theorem greedyShares_append :
    greedyShares offer demand (items ++ items') =
      greedyShares offer demand items ++
        greedyShares offer (greedyLeft offer demand items) items' := by
  induction items generalizing demand with
  | nil => rfl
  | cons i rest ih =>
    by_cases h : 0 < demand
    · rw [List.cons_append, greedyShares_cons h, greedyShares_cons h, greedyLeft_cons h, ih,
        List.cons_append]
    · have hle := not_lt.mp h
      rw [greedyShares_of_le hle, greedyShares_of_le hle, greedyLeft_of_le hle,
        greedyShares_of_le hle, List.append_nil]

theorem greedyLeft_append :
    greedyLeft offer demand (items ++ items') =
      greedyLeft offer (greedyLeft offer demand items) items' := by
  induction items generalizing demand with
  | nil => rfl
  | cons i rest ih =>
    by_cases h : 0 < demand
    · rw [List.cons_append, greedyLeft_cons h, greedyLeft_cons h, ih]
    · have hle := not_lt.mp h
      rw [greedyLeft_of_le hle, greedyLeft_of_le hle, greedyLeft_of_le hle]

/-- The demand is served from the first items, in their order and each once. -/
theorem greedyShares_items_isPrefix :
    (greedyShares offer demand items).map Share.item <+: items := by
  induction items generalizing demand with
  | nil => exact List.nil_prefix
  | cons i rest ih =>
    by_cases h : 0 < demand
    · rw [greedyShares_cons h, List.map_cons]
      exact List.cons_prefix_cons.mpr ⟨rfl, ih⟩
    · rw [greedyShares_of_le (not_lt.mp h)]
      exact List.nil_prefix

/-- Nothing is taken from an item that the demand does not meet. -/
theorem taken_greedyShares_of_notMem [DecidableEq ι] (h : i ∉ items) :
    taken (greedyShares offer demand items) i = 0 :=
  taken_eq_zero fun hmem => h (greedyShares_items_isPrefix.subset hmem)

/-- Items with something to offer give positive shares. -/
theorem greedyShares_quantity_pos (hoffer : ∀ i ∈ items, 0 < offer i) :
    ∀ share ∈ greedyShares offer demand items, 0 < share.quantity := by
  induction items generalizing demand with
  | nil => exact fun share hshare => absurd hshare List.not_mem_nil
  | cons i rest ih =>
    obtain ⟨hi, hrest⟩ := List.forall_mem_cons.mp hoffer
    by_cases h : 0 < demand
    · rw [greedyShares_cons h]
      exact List.forall_mem_cons.mpr ⟨lt_min h hi, ih hrest⟩
    · rw [greedyShares_of_le (not_lt.mp h)]
      exact fun share hshare => absurd hshare List.not_mem_nil

/-! ## Totals -/

/-- Every share leaves what the shares up to it do not cover. -/
theorem greedyShares_left_eq (k : ℕ) {share : Share ι M}
    (hshare : (greedyShares offer demand items)[k]? = some share) :
    share.left =
      demand - (((greedyShares offer demand items).take (k + 1)).map Share.quantity).sum := by
  induction items generalizing demand k with
  | nil => simp at hshare
  | cons i rest ih =>
    by_cases h : 0 < demand
    · rw [greedyShares_cons h] at hshare ⊢
      cases k with
      | zero =>
        obtain rfl := Option.some.inj hshare
        simp
      | succ k =>
        rw [List.take_succ_cons, List.map_cons, List.sum_cons, ← sub_sub]
        exact ih k hshare
    · rw [greedyShares_of_le (not_lt.mp h)] at hshare
      simp at hshare

/-- The shares and what is left of the demand make up the demand. -/
theorem sum_greedyShares_add_left :
    ((greedyShares offer demand items).map Share.quantity).sum + greedyLeft offer demand items =
      demand := by
  induction items generalizing demand with
  | nil => exact zero_add demand
  | cons i rest ih =>
    by_cases h : 0 < demand
    · rw [greedyShares_cons h, greedyLeft_cons h, List.map_cons, List.sum_cons, add_assoc, ih,
        add_sub_cancel]
    · rw [greedyShares_of_le (not_lt.mp h), greedyLeft_of_le (not_lt.mp h), List.map_nil,
        List.sum_nil, zero_add]

/-- Every share except possibly the last takes all that its item offers. -/
theorem greedyShares_dropLast_full :
    ∀ share ∈ (greedyShares offer demand items).dropLast, share.quantity = offer share.item := by
  induction items generalizing demand with
  | nil => exact fun share hshare => absurd hshare List.not_mem_nil
  | cons i rest ih =>
    by_cases h : 0 < demand
    · rw [greedyShares_cons h]
      by_cases hlast : greedyShares offer (demand - min demand (offer i)) rest = []
      · rw [hlast]
        exact fun share hshare => absurd hshare List.not_mem_nil
      · -- the walk went on, so the item was used up
        have hfull : min demand (offer i) = offer i := by
          refine (min_choice demand (offer i)).resolve_left fun hmin => hlast ?_
          rw [hmin, sub_self, greedyShares_of_le le_rfl]
        rw [List.dropLast_cons_of_ne_nil hlast]
        exact List.forall_mem_cons.mpr ⟨hfull, ih⟩
    · rw [greedyShares_of_le (not_lt.mp h)]
      exact fun share hshare => absurd hshare List.not_mem_nil

/-- A demand is never served with more than it wants. -/
theorem greedyLeft_nonneg [IsOrderedAddMonoid M] (h : 0 ≤ demand) :
    0 ≤ greedyLeft offer demand items := by
  induction items generalizing demand with
  | nil => exact h
  | cons i rest ih =>
    by_cases hpos : 0 < demand
    · rw [greedyLeft_cons hpos]
      exact ih (sub_nonneg.mpr (min_le_left _ _))
    · rwa [greedyLeft_of_le (not_lt.mp hpos)]

end
