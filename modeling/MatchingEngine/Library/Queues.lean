import Mathlib.Data.List.Nodup

/-!
# Queues under keys

A list of queues, each under its key, is read as one list: the queues one after the
other. Revising it applies a change to every item, drops the items that the change uses
up and the queues that it empties, and keeps everything else where it is.
-/

variable {κ α : Type*}

/-- Change every queued item, drop the items without an image and then the empty queues. -/
def reviseQueues (f : α → Option α) (queues : List (κ × List α)) : List (κ × List α) :=
  queues.filterMap fun entry =>
    if entry.2.filterMap f = [] then none else some (entry.1, entry.2.filterMap f)

namespace reviseQueues

variable {f g : α → Option α} {k : κ} {queue : List α} {queues : List (κ × List α)}

/-- A queue that becomes empty disappears. -/
theorem cons_of_empty (h : queue.filterMap f = []) :
    reviseQueues f ((k, queue) :: queues) = reviseQueues f queues :=
  List.filterMap_cons_none (if_pos h)

/-- Any other queue is revised in its place. -/
theorem cons_of_ne (h : queue.filterMap f ≠ []) :
    reviseQueues f ((k, queue) :: queues) = (k, queue.filterMap f) :: reviseQueues f queues :=
  List.filterMap_cons_some (if_neg h)

theorem append (queues queues' : List (κ × List α)) :
    reviseQueues f (queues ++ queues') = reviseQueues f queues ++ reviseQueues f queues' :=
  List.filterMap_append

/-- Changes that agree on the queued items revise the queues in the same way. -/
theorem congr (h : ∀ entry ∈ queues, ∀ a ∈ entry.2, f a = g a) :
    reviseQueues f queues = reviseQueues g queues := by
  refine List.filterMap_congr fun entry hentry => ?_
  rw [List.filterMap_congr (h entry hentry)]

/-- Nonempty queues whose items stay as they are stay as they are. -/
theorem eq_self (hnonempty : ∀ entry ∈ queues, entry.2 ≠ [])
    (hsame : ∀ entry ∈ queues, ∀ a ∈ entry.2, f a = some a) : reviseQueues f queues = queues := by
  induction queues with
  | nil => rfl
  | cons entry queues ih =>
    obtain ⟨k, queue⟩ := entry
    obtain ⟨hentry, hrest⟩ := List.forall_mem_cons.mp hnonempty
    obtain ⟨hqueue, hothers⟩ := List.forall_mem_cons.mp hsame
    have hkept : queue.filterMap f = queue := by
      rw [List.filterMap_congr hqueue, List.filterMap_some]
    rw [cons_of_ne (by rwa [hkept]), hkept, ih hrest hothers]

/-- Read as one list, revised queues are the changed items in their order. -/
theorem flatMap_snd (f : α → Option α) (queues : List (κ × List α)) :
    (reviseQueues f queues).flatMap Prod.snd = (queues.flatMap Prod.snd).filterMap f := by
  induction queues with
  | nil => rfl
  | cons entry queues ih =>
    obtain ⟨k, queue⟩ := entry
    rw [List.flatMap_cons, List.filterMap_append, ← ih]
    by_cases h : queue.filterMap f = []
    · rw [cons_of_empty h, h, List.nil_append]
    · rw [cons_of_ne h, List.flatMap_cons]

/-- The keys that are left are keys of queues with an item that is left. -/
theorem mem_keys_iff :
    k ∈ (reviseQueues f queues).map Prod.fst ↔
      ∃ entry ∈ queues, entry.1 = k ∧ entry.2.filterMap f ≠ [] := by
  unfold reviseQueues
  simp only [List.mem_map, List.mem_filterMap]
  constructor
  · rintro ⟨_, ⟨entry, hentry, heq⟩, rfl⟩
    split at heq
    · cases heq
    · cases heq
      exact ⟨entry, hentry, rfl, by assumption⟩
  · rintro ⟨entry, hentry, rfl, hne⟩
    exact ⟨_, ⟨entry, hentry, if_neg hne⟩, rfl⟩

/-- A key disappears exactly when no item of its queue is left. -/
theorem notMem_keys_iff (hkeys : (queues.map Prod.fst).Nodup) {entry : κ × List α}
    (hentry : entry ∈ queues) :
    entry.1 ∉ (reviseQueues f queues).map Prod.fst ↔ entry.2.filterMap f = [] := by
  rw [mem_keys_iff]
  constructor
  · intro h
    by_contra hne
    exact h ⟨entry, hentry, rfl, hne⟩
  · rintro hempty ⟨other, hother, hkey, hne⟩
    rw [List.inj_on_of_nodup_map hkeys hother hentry hkey] at hne
    exact hne hempty

end reviseQueues
