import Mathlib.Data.List.Nodup

/-!
# Numbered logs and lists kept in an order

The last entry of a numbered log with a given property changes only when such an
entry is appended. A list that is sorted by an asymmetric relation presents two
of its members in the order in which they are related.
-/

variable {α β : Type*}

section LastNumbered

variable (p : α → Prop) [DecidablePred p]

/-- The last entry with property `p` of a log numbered from `first`, with its number. -/
def lastNumbered (first : ℕ) (log : List α) : Option (α × ℕ) :=
  ((log.zipIdx first).filter (fun entry => p entry.1)).getLast?

/-- A new entry with the property is the last one, under the next free number. -/
theorem lastNumbered_concat_of_pos {a : α} (ha : p a) (first : ℕ) (log : List α) :
    lastNumbered p first (log ++ [a]) = some (a, first + log.length) := by
  simp [lastNumbered, List.zipIdx_append, ha]

/-- Entries without the property do not change the last one. -/
theorem lastNumbered_append_of_forall_not {log' : List α} (h : ∀ a ∈ log', ¬ p a) (first : ℕ)
    (log : List α) : lastNumbered p first (log ++ log') = lastNumbered p first log := by
  have hnone : (log'.zipIdx (first + log.length)).filter (fun entry => p entry.1) = [] := by
    rw [List.filter_eq_nil_iff]
    rintro ⟨a, n⟩ hmem
    simpa using h a (List.fst_mem_of_mem_zipIdx hmem)
  simp only [lastNumbered, List.zipIdx_append, List.filter_append, hnone, List.append_nil]

/-- A new entry without the property does not change the last one. -/
theorem lastNumbered_concat_of_neg {a : α} (ha : ¬ p a) (first : ℕ) (log : List α) :
    lastNumbered p first (log ++ [a]) = lastNumbered p first log :=
  lastNumbered_append_of_forall_not p (by simpa using ha) first log

/-- The numbers of the log have all been given out. -/
theorem lastNumbered_lt {first : ℕ} {log : List α} {a : α} {n : ℕ}
    (h : lastNumbered p first log = some (a, n)) : n < first + log.length := by
  have hmem := List.mem_of_getLast? h
  have hlt : n < log.length + first := List.snd_lt_of_mem_zipIdx (List.mem_filter.mp hmem).1
  omega

end LastNumbered

/-- In a list sorted by an asymmetric relation, two members stand in the order
in which they are related. -/
theorem pair_sublist_iff {r : α → α → Prop} (hasymm : ∀ a b, r a b → ¬ r b a) {l : List α}
    (hsorted : l.Pairwise r) {a b : α} (ha : a ∈ l) (hb : b ∈ l) :
    List.Sublist [a, b] l ↔ r a b := by
  constructor
  · intro h
    exact List.rel_of_pairwise_cons (hsorted.sublist h) (List.mem_singleton_self b)
  · intro h
    obtain ⟨before, after, rfl⟩ := List.append_of_mem ha
    obtain ⟨-, -, hcross⟩ := List.pairwise_append.mp hsorted
    rcases List.mem_append.mp hb with hb | hb
    · exact absurd (hcross b hb a List.mem_cons_self) (hasymm a b h)
    · rcases List.mem_cons.mp hb with rfl | hb
      · exact absurd h (hasymm b b h)
      · exact ((List.singleton_sublist.mpr hb).cons_cons a).trans (List.sublist_append_right _ _)

/-- The order of two members of a sorted list, read off their distinct keys. -/
theorem pair_keys_sublist_iff {r : α → α → Prop} (hasymm : ∀ a b, r a b → ¬ r b a) {key : α → β}
    {l : List α} (hsorted : l.Pairwise r) (hkeys : (l.map key).Nodup) {a b : α} (ha : a ∈ l)
    (hb : b ∈ l) : List.Sublist [key a, key b] (l.map key) ↔ r a b := by
  rw [← pair_sublist_iff hasymm hsorted ha hb]
  constructor
  · intro h
    obtain ⟨l', hl', heq⟩ := List.sublist_map_iff.mp h
    have hinj := List.inj_on_of_nodup_map hkeys
    obtain ⟨x, tail, rfl, hx, htail⟩ := List.map_eq_cons_iff.mp heq.symm
    obtain ⟨y, rest, rfl, hy, hrest⟩ := List.map_eq_cons_iff.mp htail
    obtain rfl := List.map_eq_nil_iff.mp hrest
    rwa [hinj (hl'.subset (by simp)) ha hx, hinj (hl'.subset (by simp)) hb hy] at hl'
  · exact fun h => h.map key
