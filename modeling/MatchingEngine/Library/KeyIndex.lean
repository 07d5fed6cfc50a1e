import Mathlib.Data.Finmap
import Mathlib.Data.List.Perm.Basic

/-!
# Finite maps that index a list by key

A program often keeps the same items twice: in a list that fixes their order and
in a finite map that finds them by key. `Indexes` says that the two agree. The
rules of this file say what the map has to do when the list changes by one item.
-/

variable {α κ : Type*} [DecidableEq κ]

/-- The map holds every listed item under its key and nothing else, and no two
listed items share a key. -/
structure Indexes (key : α → κ) (index : Finmap (fun _ : κ => α)) (items : List α) : Prop where
  /-- Listed items have distinct keys. -/
  nodup : (items.map key).Nodup
  /-- The map returns exactly the listed item of a key. -/
  lookup_iff : ∀ k a, index.lookup k = some a ↔ a ∈ items ∧ key a = k

namespace Indexes

variable {key : α → κ} {index : Finmap (fun _ : κ => α)} {items : List α}

/-- The empty map indexes the empty list. -/
theorem empty : Indexes key (∅ : Finmap (fun _ : κ => α)) [] :=
  ⟨List.nodup_nil, by simp⟩

/-- Indexing does not depend on the order of the list. -/
theorem perm {items' : List α} (h : Indexes key index items) (hperm : items.Perm items') :
    Indexes key index items' :=
  ⟨(hperm.map key).nodup_iff.mp h.nodup, fun k a => by rw [h.lookup_iff, hperm.mem_iff]⟩

/-- A listed item is found under its own key. -/
theorem lookup_key (h : Indexes key index items) {a : α} (ha : a ∈ items) :
    index.lookup (key a) = some a := (h.lookup_iff _ a).mpr ⟨ha, rfl⟩

/-- A found item is listed. -/
theorem mem_of_lookup (h : Indexes key index items) {k : κ} {a : α}
    (hlookup : index.lookup k = some a) : a ∈ items := ((h.lookup_iff k a).mp hlookup).1

/-- A found item carries the key it was found under. -/
theorem key_of_lookup (h : Indexes key index items) {k : κ} {a : α}
    (hlookup : index.lookup k = some a) : key a = k := ((h.lookup_iff k a).mp hlookup).2

/-- Listed items with one key are equal. -/
theorem eq_of_key_eq (h : Indexes key index items) {a b : α} (ha : a ∈ items) (hb : b ∈ items)
    (hkey : key a = key b) : a = b := by
  have hlookup := h.lookup_key ha
  rw [hkey, h.lookup_key hb] at hlookup
  exact (Option.some.inj hlookup).symm

/-- The indexed keys are the keys of the listed items. -/
theorem mem_iff (h : Indexes key index items) {k : κ} : k ∈ index ↔ ∃ a ∈ items, key a = k := by
  simp only [Finmap.mem_iff, h.lookup_iff]

/-- A key of an item outside the rest is not the key of any item of the rest. -/
theorem key_ne_of_mem {a b : α} {rest : List α} (h : Indexes key index (a :: rest))
    (hb : b ∈ rest) : key b ≠ key a := by
  intro heq
  have hnodup := h.nodup
  rw [List.map_cons, List.nodup_cons] at hnodup
  exact hnodup.1 (heq ▸ List.mem_map_of_mem hb)

/-- Overwriting an item by one of the same key overwrites it in the list. -/
theorem replace {a : α} {rest : List α} (h : Indexes key index (a :: rest)) (a' : α)
    (hkey : key a' = key a) : Indexes key (index.insert (key a') a') (a' :: rest) := by
  refine ⟨?_, fun k b => ?_⟩
  · simpa only [List.map_cons, hkey] using h.nodup
  · by_cases hk : k = key a'
    · subst hk
      rw [Finmap.lookup_insert, Option.some.injEq, List.mem_cons]
      constructor
      · rintro rfl
        exact ⟨Or.inl rfl, rfl⟩
      · rintro ⟨rfl | hb, heq⟩
        · rfl
        · exact absurd (heq.trans hkey) (h.key_ne_of_mem hb)
    · rw [Finmap.lookup_insert_of_ne _ hk, h.lookup_iff, List.mem_cons, List.mem_cons]
      constructor
      · rintro ⟨rfl | hb, heq⟩
        · exact absurd (heq.symm.trans hkey.symm) hk
        · exact ⟨Or.inr hb, heq⟩
      · rintro ⟨rfl | hb, heq⟩
        · exact absurd heq.symm hk
        · exact ⟨Or.inr hb, heq⟩

/-- Erasing an item's key drops it from the list. -/
theorem remove {a : α} {rest : List α} (h : Indexes key index (a :: rest)) :
    Indexes key (index.erase (key a)) rest := by
  refine ⟨?_, fun k b => ?_⟩
  · have hnodup := h.nodup
    rw [List.map_cons, List.nodup_cons] at hnodup
    exact hnodup.2
  · by_cases hk : k = key a
    · subst hk
      rw [Finmap.lookup_erase]
      constructor
      · intro hnone
        cases hnone
      · rintro ⟨hb, heq⟩
        exact absurd heq (h.key_ne_of_mem hb)
    · rw [Finmap.lookup_erase_ne hk, h.lookup_iff, List.mem_cons]
      constructor
      · rintro ⟨rfl | hb, heq⟩
        · exact absurd heq.symm hk
        · exact ⟨hb, heq⟩
      · rintro ⟨hb, heq⟩
        exact ⟨Or.inr hb, heq⟩

/-- Inserting an item under a new key adds it to the list. -/
theorem add {a : α} (h : Indexes key index items) (hnew : key a ∉ index) :
    Indexes key (index.insert (key a) a) (a :: items) := by
  have hne : ∀ b ∈ items, key b ≠ key a := fun b hb heq => hnew (h.mem_iff.mpr ⟨b, hb, heq⟩)
  refine ⟨?_, fun k b => ?_⟩
  · rw [List.map_cons, List.nodup_cons, List.mem_map]
    exact ⟨fun ⟨b, hb, heq⟩ => hne b hb heq, h.nodup⟩
  · by_cases hk : k = key a
    · subst hk
      rw [Finmap.lookup_insert, Option.some.injEq, List.mem_cons]
      constructor
      · rintro rfl
        exact ⟨Or.inl rfl, rfl⟩
      · rintro ⟨rfl | hb, heq⟩
        · rfl
        · exact absurd heq (hne b hb)
    · rw [Finmap.lookup_insert_of_ne _ hk, h.lookup_iff, List.mem_cons]
      constructor
      · rintro ⟨hb, heq⟩
        exact ⟨Or.inr hb, heq⟩
      · rintro ⟨rfl | hb, heq⟩
        · exact absurd heq.symm hk
        · exact ⟨hb, heq⟩

/-- When the items are changed under their keys or dropped, so is what the map returns. -/
theorem lookup_filterMap {index' : Finmap (fun _ : κ => α)} {f : α → Option α}
    (h : Indexes key index items) (h' : Indexes key index' (items.filterMap f))
    (hkey : ∀ a b, f a = some b → key b = key a) (k : κ) :
    index'.lookup k = (index.lookup k).bind f := by
  refine Option.ext fun b => ?_
  rw [h'.lookup_iff, Option.bind_eq_some_iff, List.mem_filterMap]
  constructor
  · rintro ⟨⟨a, ha, hab⟩, rfl⟩
    exact ⟨a, (h.lookup_iff _ a).mpr ⟨ha, (hkey a b hab).symm⟩, hab⟩
  · rintro ⟨a, hlookup, hab⟩
    obtain ⟨ha, rfl⟩ := (h.lookup_iff _ a).mp hlookup
    exact ⟨⟨a, ha, hab⟩, hkey a b hab⟩

end Indexes
