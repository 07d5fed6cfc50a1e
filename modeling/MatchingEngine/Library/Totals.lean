import Mathlib.Algebra.BigOperators.Group.Multiset.Basic
import Mathlib.Algebra.Order.BigOperators.Group.Finset
import Mathlib.Algebra.Order.BigOperators.Group.Multiset
import Mathlib.Data.Finmap

/-!
# Totals over finite maps

A quantity of the values of a finite map, added up over all keys. The total does not
depend on the order of the keys, and it changes by one value when one key changes. The
first lemmas say where what is found in a changed map comes from.
-/

namespace Finmap

variable {κ α β M : Type*}

/-- What is found after an insertion is the new value, or was there under another key. -/
theorem cases_of_lookup_insert [DecidableEq κ] {m : Finmap (fun _ : κ => α)} {k k' : κ} {a a' : α}
    (h : (m.insert k a).lookup k' = some a') :
    k' = k ∧ a' = a ∨ k' ≠ k ∧ m.lookup k' = some a' := by
  by_cases hk : k' = k
  · rw [hk, lookup_insert] at h
    exact .inl ⟨hk, (Option.some.inj h).symm⟩
  · exact .inr ⟨hk, (lookup_insert_of_ne _ hk).symm.trans h⟩

/-- What is found after a deletion was there. -/
theorem lookup_of_lookup_erase [DecidableEq κ] {m : Finmap (fun _ : κ => α)} {k k' : κ} {a : α}
    (h : (m.erase k).lookup k' = some a) : m.lookup k' = some a := by
  by_cases hk : k' = k
  · rw [hk, lookup_erase] at h
    cases h
  · exact (lookup_erase_ne hk).symm.trans h

/-- What a quantity of the values adds up to. -/
def total [AddCommMonoid M] (f : α → M) (m : Finmap (fun _ : κ => α)) : M :=
  (m.entries.map fun entry => f entry.2).sum

@[simp] theorem total_empty [AddCommMonoid M] {f : α → M} :
    total f (∅ : Finmap (fun _ : κ => α)) = 0 := rfl

/-- The keys are counted by a total. -/
theorem card_keys (m : Finmap (fun _ : κ => α)) : m.keys.card = total (fun _ => 1) m := by
  unfold total
  rw [Multiset.map_const', Multiset.sum_replicate]
  exact (Multiset.card_map _ _).trans (Nat.mul_one _).symm

section

variable [DecidableEq κ] [AddCommMonoid M] {f : α → M} {m : Finmap (fun _ : κ => α)} {k : κ}
  {a : α}

/-- A new key adds its value. -/
theorem total_insert_of_notMem (h : k ∉ m) : total f (m.insert k a) = f a + total f m := by
  unfold total
  rw [entries_insert_of_notMem h, Multiset.map_cons, Multiset.sum_cons]

/-- Erasing a key takes its value away. -/
theorem total_of_lookup (h : m.lookup k = some a) : total f m = f a + total f (m.erase k) := by
  have hinsert : (m.erase k).insert k a = m := by
    refine ext_lookup fun k' => ?_
    by_cases hk : k' = k
    · rw [hk, lookup_insert, h]
    · rw [lookup_insert_of_ne _ hk, lookup_erase_ne hk]
  rw [← total_insert_of_notMem notMem_erase_self, hinsert]

/-- A key that is erased does not remember what was inserted before. -/
theorem erase_insert_self : (m.insert k a).erase k = m.erase k := by
  refine ext_lookup fun k' => ?_
  by_cases hk : k' = k
  · rw [hk, lookup_erase, lookup_erase]
  · rw [lookup_erase_ne hk, lookup_erase_ne hk, lookup_insert_of_ne _ hk]

/-- A value that is replaced gives way to the new one. -/
theorem total_insert_of_lookup (h : m.lookup k = some a) (b : α) :
    total f (m.insert k b) + f a = total f m + f b := by
  rw [total_of_lookup (lookup_insert m), erase_insert_self, total_of_lookup h, add_comm (f b),
    add_right_comm, add_comm (f a)]

/-- A list that visits every entry once adds up to the total. -/
theorem total_eq_sum {entries : List (κ × α)} (hnodup : (entries.map Prod.fst).Nodup)
    (hmem : ∀ k a, (k, a) ∈ entries ↔ m.lookup k = some a) :
    total f m = (entries.map fun entry => f entry.2).sum := by
  induction entries generalizing m with
  | nil =>
    have hempty : m = ∅ := ext_lookup fun k => by
      rw [lookup_empty]
      exact Option.eq_none_iff_forall_not_mem.mpr fun a ha =>
        List.not_mem_nil ((hmem k a).mpr ha)
    rw [hempty, total_empty, List.map_nil, List.sum_nil]
  | cons entry entries ih =>
    obtain ⟨k, a⟩ := entry
    rw [List.map_cons, List.nodup_cons] at hnodup
    have hfirst : m.lookup k = some a := (hmem k a).mp List.mem_cons_self
    rw [total_of_lookup hfirst, List.map_cons, List.sum_cons]
    congr 1
    refine ih hnodup.2 fun k' a' => ?_
    by_cases hk : k' = k
    · subst hk
      rw [lookup_erase]
      exact iff_of_false (fun h => hnodup.1 (List.mem_map.mpr ⟨_, h, rfl⟩)) (by simp)
    · rw [lookup_erase_ne hk, ← hmem, List.mem_cons, Prod.mk.injEq]
      exact ⟨Or.inr, fun h => h.resolve_left fun heq => hk heq.1⟩

/-- Some list visits every entry once. -/
theorem exists_entries (m : Finmap (fun _ : κ => α)) :
    ∃ entries : List (κ × α), (entries.map Prod.fst).Nodup ∧
      ∀ k a, (k, a) ∈ entries ↔ m.lookup k = some a := by
  refine ⟨m.entries.toList.map fun entry => (entry.1, entry.2), ?_, fun k a => ?_⟩
  · have hkeys := Multiset.nodup_keys.mpr m.nodupKeys
    rw [← Multiset.coe_toList m.entries, Multiset.coe_keys, Multiset.coe_nodup] at hkeys
    rw [List.map_map]
    exact hkeys
  · rw [lookup_eq_some_iff, List.mem_map]
    constructor
    · rintro ⟨entry, hentry, heq⟩
      cases heq
      exact Multiset.mem_toList.mp hentry
    · exact fun h => ⟨⟨k, a⟩, Multiset.mem_toList.mpr h, rfl⟩

/-- The total is a sum over any keys that include those of the map. -/
theorem total_eq_sum_keys {keys : Finset κ} (h : m.keys ⊆ keys) :
    total f m = ∑ k ∈ keys, (m.lookup k).elim 0 f := by
  obtain ⟨entries, hnodup, hmem⟩ := m.exists_entries
  have hkeys : (entries.map Prod.fst).toFinset = m.keys := by
    ext k
    rw [List.mem_toFinset, mem_keys, mem_iff, List.mem_map]
    constructor
    · rintro ⟨entry, hentry, rfl⟩
      exact ⟨entry.2, (hmem _ _).mp hentry⟩
    · rintro ⟨a, ha⟩
      exact ⟨(k, a), (hmem k a).mpr ha, rfl⟩
  have hentries : entries.map (fun entry => f entry.2) =
      (entries.map Prod.fst).map fun k => (m.lookup k).elim 0 f := by
    rw [List.map_map]
    refine List.map_congr_left fun entry hentry => ?_
    rw [Function.comp_apply, (hmem _ _).mp hentry]
    rfl
  rw [total_eq_sum hnodup hmem, hentries, ← List.sum_toFinset _ hnodup, hkeys]
  refine Finset.sum_subset h fun k _ hk => ?_
  rw [lookup_eq_none.mpr (mt mem_keys.mpr hk)]
  rfl

/-- Maps that count the same under every key have the same total. -/
theorem total_congr {m' : Finmap (fun _ : κ => α)}
    (h : ∀ k, (m'.lookup k).elim 0 f = (m.lookup k).elim 0 f) : total f m' = total f m := by
  rw [total_eq_sum_keys (@Finset.subset_union_left κ _ m'.keys m.keys),
    total_eq_sum_keys (@Finset.subset_union_right κ _ m'.keys m.keys)]
  exact Finset.sum_congr rfl fun k _ => h k

/-- A total that is not zero counts the value of some key. -/
theorem exists_of_total_ne_zero (h : total f m ≠ 0) :
    ∃ k a, m.lookup k = some a ∧ f a ≠ 0 := by
  by_contra hnone
  refine h (total_congr (m := ∅) fun k => ?_)
  cases hlookup : m.lookup k with
  | none => rfl
  | some a =>
    by_contra hne
    exact hnone ⟨k, a, hlookup, hne⟩

/-- A map that counts at most as much under every key has at most the same total. -/
theorem total_le_total [PartialOrder M] [IsOrderedAddMonoid M] {m' : Finmap (fun _ : κ => α)}
    (h : ∀ k, (m'.lookup k).elim 0 f ≤ (m.lookup k).elim 0 f) : total f m' ≤ total f m := by
  rw [total_eq_sum_keys (@Finset.subset_union_left κ _ m'.keys m.keys),
    total_eq_sum_keys (@Finset.subset_union_right κ _ m'.keys m.keys)]
  exact Finset.sum_le_sum fun k _ => h k

/-- A quantity of changed values is a quantity of the values. -/
theorem total_map {g : α → β} {m' : Finmap (fun _ : κ => β)} (f : β → M)
    (h : ∀ k, m'.lookup k = (m.lookup k).map g) : total f m' = total (fun a => f (g a)) m := by
  obtain ⟨entries, hnodup, hmem⟩ := m.exists_entries
  have hkeys : ((entries.map (Prod.map id g)).map Prod.fst).Nodup := by
    rw [List.map_map]
    exact hnodup
  rw [total_eq_sum hnodup hmem, total_eq_sum hkeys, List.map_map]
  · rfl
  · intro k b
    rw [h, List.mem_map, Option.map_eq_some_iff]
    constructor
    · rintro ⟨entry, hentry, heq⟩
      cases heq
      exact ⟨entry.2, (hmem _ _).mp hentry, rfl⟩
    · rintro ⟨a, ha, rfl⟩
      exact ⟨(k, a), (hmem k a).mpr ha, rfl⟩

end

end Finmap
