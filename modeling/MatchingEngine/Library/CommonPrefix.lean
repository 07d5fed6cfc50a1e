import Mathlib.Data.List.Infix

/-!
# Where two lists part

The longest common prefix of two lists, and the first place where they differ.
-/

variable {α : Type*} [DecidableEq α]

/-- The longest common prefix of two lists. -/
def commonPrefix : List α → List α → List α
  | a :: l, b :: l' => if a = b then a :: commonPrefix l l' else []
  | _, _ => []

variable {a b : α} {l l' p : List α}

@[simp] theorem commonPrefix_nil_left : commonPrefix [] l = [] := by
  cases l <;> rfl

@[simp] theorem commonPrefix_nil_right : commonPrefix l [] = [] := by
  cases l <;> rfl

theorem commonPrefix_cons_self : commonPrefix (a :: l) (a :: l') = a :: commonPrefix l l' :=
  if_pos rfl

theorem commonPrefix_cons_of_ne (h : a ≠ b) : commonPrefix (a :: l) (b :: l') = [] := if_neg h

/-- Both lists begin with their longest common prefix. -/
theorem commonPrefix_prefix (l l' : List α) :
    commonPrefix l l' <+: l ∧ commonPrefix l l' <+: l' := by
  induction l generalizing l' with
  | nil => rw [commonPrefix_nil_left]; exact ⟨List.nil_prefix, List.nil_prefix⟩
  | cons a l ih =>
    cases l' with
    | nil => rw [commonPrefix_nil_right]; exact ⟨List.nil_prefix, List.nil_prefix⟩
    | cons b l' =>
      by_cases heq : a = b
      · subst heq
        rw [commonPrefix_cons_self]
        exact ⟨List.cons_prefix_cons.mpr ⟨rfl, (ih l').1⟩,
          List.cons_prefix_cons.mpr ⟨rfl, (ih l').2⟩⟩
      · rw [commonPrefix_cons_of_ne heq]
        exact ⟨List.nil_prefix, List.nil_prefix⟩

/-- Lists with the same beginning part behind it. -/
theorem commonPrefix_append (p l l' : List α) :
    commonPrefix (p ++ l) (p ++ l') = p ++ commonPrefix l l' := by
  induction p with
  | nil => rfl
  | cons a p ih => rw [List.cons_append, List.cons_append, commonPrefix_cons_self, ih,
      List.cons_append]

/-- A list and a beginning of it part at the end of the latter. -/
theorem commonPrefix_eq_right (h : p <+: l) : commonPrefix l p = p := by
  obtain ⟨rest, rfl⟩ := h
  have hparted := commonPrefix_append p rest []
  rwa [List.append_nil, commonPrefix_nil_right, List.append_nil] at hparted

/-- A beginning of a list and the list part at the end of the former. -/
theorem commonPrefix_eq_left (h : p <+: l) : commonPrefix p l = p := by
  obtain ⟨rest, rfl⟩ := h
  have hparted := commonPrefix_append p [] rest
  rwa [List.append_nil, commonPrefix_nil_left, List.append_nil] at hparted

/-- Lists that part within the beginning of one of them part there whatever follows. -/
theorem commonPrefix_append_right (h : ¬ p <+: l) (l' : List α) :
    commonPrefix l (p ++ l') = commonPrefix l p := by
  induction p generalizing l with
  | nil => exact absurd List.nil_prefix h
  | cons b p ih =>
    cases l with
    | nil => rw [commonPrefix_nil_left, commonPrefix_nil_left]
    | cons a l =>
      by_cases heq : a = b
      · subst heq
        have hrest : ¬ p <+: l := fun hp => h (List.cons_prefix_cons.mpr ⟨rfl, hp⟩)
        rw [List.cons_append, commonPrefix_cons_self, commonPrefix_cons_self, ih hrest]
      · rw [List.cons_append, commonPrefix_cons_of_ne heq, commonPrefix_cons_of_ne heq]

/-- A list that is not a prefix goes on where the lists part. -/
theorem length_commonPrefix_lt (h : ¬ p <+: l) : (commonPrefix l p).length < p.length := by
  induction p generalizing l with
  | nil => exact absurd List.nil_prefix h
  | cons b p ih =>
    cases l with
    | nil => exact Nat.succ_pos _
    | cons a l =>
      by_cases heq : a = b
      · subst heq
        rw [commonPrefix_cons_self]
        exact Nat.succ_lt_succ (ih fun hp => h (List.cons_prefix_cons.mpr ⟨rfl, hp⟩))
      · rw [commonPrefix_cons_of_ne heq]
        exact Nat.succ_pos _

/-- Different lists differ where they part: one of them ends there or the items differ. -/
theorem getElem?_commonPrefix_ne (h : l ≠ l') :
    l[(commonPrefix l l').length]? ≠ l'[(commonPrefix l l').length]? := by
  induction l generalizing l' with
  | nil =>
    cases l' with
    | nil => exact absurd rfl h
    | cons b l' => simp
  | cons a l ih =>
    cases l' with
    | nil => simp
    | cons b l' =>
      by_cases heq : a = b
      · subst heq
        rw [commonPrefix_cons_self, List.length_cons, List.getElem?_cons_succ,
          List.getElem?_cons_succ]
        exact ih fun hrest => h (by rw [hrest])
      · rw [commonPrefix_cons_of_ne heq]
        simpa using heq
