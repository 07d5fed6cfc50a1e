import Mathlib.Data.Finset.Union
import Mathlib.Data.List.Nodup

/-!
# Collecting distinct keys

A program that goes through a list and keeps a set of the keys it has seen finds out
whether two items share a key. It may go through the list in parts, each part with the set
that the part before it leaves.
-/

variable {α κ : Type*} [DecidableEq κ]

/-- Going through the items meets new and distinct keys only, and adds them to the set. -/
structure Collects (key : α → κ) (seen seen' : Finset κ) (items : List α) : Prop where
  /-- No two items share a key. -/
  nodup : (items.map key).Nodup
  /-- No key was seen before. -/
  notMem : ∀ a ∈ items, key a ∉ seen
  /-- All keys have been seen at the end. -/
  eq_union : seen' = seen ∪ (items.map key).toFinset

namespace Collects

variable {key : α → κ} {seen seen' : Finset κ} {items items' : List α}

theorem nil_iff : Collects key seen seen' [] ↔ seen' = seen := by
  constructor
  · rintro ⟨-, -, rfl⟩
    exact Finset.union_empty _
  · rintro rfl
    exact ⟨List.nodup_nil, fun _ h => absurd h List.not_mem_nil, (Finset.union_empty _).symm⟩

theorem singleton_iff {a : α} :
    Collects key seen seen' [a] ↔ key a ∉ seen ∧ seen' = insert (key a) seen := by
  have hunion : seen ∪ ([a].map key).toFinset = insert (key a) seen := by
    rw [Finset.union_comm]
    rfl
  constructor
  · rintro ⟨-, hnew, rfl⟩
    exact ⟨hnew a List.mem_cons_self, hunion⟩
  · rintro ⟨hnew, rfl⟩
    exact ⟨List.nodup_singleton _, fun b hb => List.mem_singleton.mp hb ▸ hnew, hunion.symm⟩

/-- The second part of a list starts with the keys seen in the first part. -/
theorem append_iff : Collects key seen seen' (items ++ items') ↔
    ∃ between, Collects key seen between items ∧ Collects key between seen' items' := by
  have hunion : seen ∪ (items.map key).toFinset ∪ (items'.map key).toFinset =
      seen ∪ ((items ++ items').map key).toFinset := by
    rw [List.map_append, List.toFinset_append, Finset.union_assoc]
  constructor
  · rintro ⟨hnodup, hnew, rfl⟩
    rw [List.map_append, List.nodup_append] at hnodup
    refine ⟨_, ⟨hnodup.1, fun a ha => hnew a (List.mem_append_left _ ha), rfl⟩, hnodup.2.1,
      fun a ha hmem => ?_, hunion.symm⟩
    rcases Finset.mem_union.mp hmem with hmem | hmem
    · exact hnew a (List.mem_append_right _ ha) hmem
    · exact hnodup.2.2 _ (List.mem_toFinset.mp hmem) _ (List.mem_map_of_mem ha) rfl
  · rintro ⟨_, ⟨hnodup, hnew, rfl⟩, hnodup', hnew', rfl⟩
    refine ⟨?_, fun a ha => ?_, hunion⟩
    · rw [List.map_append, List.nodup_append]
      refine ⟨hnodup, hnodup', fun k hk k' hk' heq => ?_⟩
      obtain ⟨a, ha, rfl⟩ := List.mem_map.mp hk'
      refine hnew' a ha (Finset.mem_union_right _ (List.mem_toFinset.mpr ?_))
      rwa [← heq]
    · rcases List.mem_append.mp ha with ha | ha
      · exact hnew a ha
      · exact fun hmem => hnew' a ha (Finset.mem_union_left _ hmem)

/-- At the start no keys have been seen. -/
theorem empty_iff : Collects key ∅ seen items ↔
    (items.map key).Nodup ∧ seen = (items.map key).toFinset := by
  constructor
  · rintro ⟨hnodup, -, rfl⟩
    exact ⟨hnodup, Finset.empty_union _⟩
  · rintro ⟨hnodup, rfl⟩
    exact ⟨hnodup, fun _ _ => Finset.notMem_empty _, (Finset.empty_union _).symm⟩

end Collects
