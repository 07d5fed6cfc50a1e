import Mathlib.Data.List.Find
import Mathlib.Order.Defs.Unbundled

/-!
# Ordered association maps

An ordered map is an association list whose keys increase strictly along a
given strict total order. The order is a parameter, so one development covers
ascending and descending maps. Iteration visits the entries in list order, and
the first entry is the one with the best key.

The two updating operations are described by a split of the entries around the
touched key. Every other fact about them is read off that split.
-/

variable {κ ν : Type*}

/-- An association list with strictly increasing keys along `r`. -/
structure OrderedMap (r : κ → κ → Prop) (ν : Type*) where
  /-- The entries in iteration order. -/
  entries : List (κ × ν)
  /-- Keys strictly increase along the order of the map. -/
  sorted : entries.Pairwise (fun a b => r a.1 b.1)

namespace OrderedMap

section Entries

variable (r : κ → κ → Prop) [DecidableRel r] [DecidableEq κ]

/-- The value stored under a key, if there is one. -/
def findEntries (k : κ) (entries : List (κ × ν)) : Option ν :=
  (entries.find? (fun entry => entry.1 = k)).map Prod.snd

/-- Replace the value under `k` by its image under `f`, after creating it with
the given default when the key is absent. -/
def upsertEntries (k : κ) (default : ν) (f : ν → ν) : List (κ × ν) → List (κ × ν)
  | [] => [(k, f default)]
  | entry :: rest =>
      if r k entry.1 then (k, f default) :: entry :: rest
      else if entry.1 = k then (k, f entry.2) :: rest
      else entry :: upsertEntries k default f rest

/-- Drop the entry stored under `k`. -/
def eraseEntries (k : κ) (entries : List (κ × ν)) : List (κ × ν) :=
  entries.filter (fun entry => entry.1 ≠ k)

omit [DecidableRel r] in
/-- A successful search splits sorted entries around the found key. -/
theorem findEntries_split {k : κ} {v : ν} {entries : List (κ × ν)}
    (hsorted : entries.Pairwise (fun a b => r a.1 b.1))
    (hfind : findEntries k entries = some v) :
    ∃ before after, entries = before ++ (k, v) :: after ∧
      (∀ entry ∈ before, r entry.1 k) ∧ (∀ entry ∈ after, r k entry.1) := by
  simp only [findEntries, Option.map_eq_some_iff] at hfind
  obtain ⟨⟨k', v'⟩, hentry, rfl⟩ := hfind
  obtain ⟨hkey, before, after, rfl, _⟩ := List.find?_eq_some_iff_append.mp hentry
  have hk : k' = k := by simpa using hkey
  subst hk
  obtain ⟨_, hafter, hcross⟩ := List.pairwise_append.mp hsorted
  exact ⟨before, after, rfl, fun entry h => hcross entry h _ List.mem_cons_self,
    fun entry h => List.rel_of_pairwise_cons hafter h⟩

/-- A failed search means that no entry has the key. -/
theorem findEntries_eq_none {k : κ} {entries : List (κ × ν)} :
    findEntries k entries = none ↔ ∀ entry ∈ entries, entry.1 ≠ k := by
  simp [findEntries]

/-- A key between two halves of sorted entries finds its own value. -/
theorem findEntries_append_cons {k : κ} {v : ν} {before after : List (κ × ν)}
    (hbefore : ∀ entry ∈ before, entry.1 ≠ k) :
    findEntries k (before ++ (k, v) :: after) = some v := by
  have hnone : before.find? (fun entry => entry.1 = k) = none := by simpa using hbefore
  simp only [findEntries, List.find?_append, hnone, Option.none_or, List.find?_cons, decide_true,
    Option.map_some]

variable [IsStrictTotalOrder κ r]

/-- Updating a present key touches its entry in place. -/
theorem upsertEntries_append_cons {k : κ} {v default : ν} {f : ν → ν} {before after : List (κ × ν)}
    (hbefore : ∀ entry ∈ before, r entry.1 k) :
    upsertEntries r k default f (before ++ (k, v) :: after) = before ++ (k, f v) :: after := by
  induction before with
  | nil => simp [upsertEntries, irrefl_of r k]
  | cons entry before ih =>
    have hlt := hbefore entry List.mem_cons_self
    have hne : entry.1 ≠ k := by
      rintro rfl
      exact irrefl _ hlt
    simp only [List.cons_append, upsertEntries, if_neg (asymm_of r hlt), if_neg hne,
      ih (fun e he => hbefore e (List.mem_cons_of_mem _ he))]

/-- An update touches the entry of its key, or inserts it where the order puts
it; the entries before and after are those of the original map. -/
theorem upsertEntries_split (k : κ) (default : ν) (f : ν → ν) {entries : List (κ × ν)}
    (hsorted : entries.Pairwise (fun a b => r a.1 b.1)) :
    ∃ before after, (∀ entry ∈ before, r entry.1 k) ∧ (∀ entry ∈ after, r k entry.1) ∧
      ((findEntries k entries = none ∧ entries = before ++ after ∧
          upsertEntries r k default f entries = before ++ (k, f default) :: after) ∨
        ∃ v, findEntries k entries = some v ∧ entries = before ++ (k, v) :: after ∧
          upsertEntries r k default f entries = before ++ (k, f v) :: after) := by
  induction entries with
  | nil => exact ⟨[], [], by simp, by simp, Or.inl ⟨rfl, rfl, rfl⟩⟩
  | cons entry rest ih =>
    obtain ⟨hhead, hrest⟩ := List.pairwise_cons.mp hsorted
    by_cases hlt : r k entry.1
    · have hafter : ∀ e ∈ entry :: rest, r k e.1 := by
        intro e he
        rcases List.mem_cons.mp he with rfl | he
        · exact hlt
        · exact trans_of r hlt (hhead e he)
      refine ⟨[], entry :: rest, by simp, hafter, Or.inl ⟨?_, rfl, by simp [upsertEntries, hlt]⟩⟩
      rw [findEntries_eq_none]
      rintro e he rfl
      exact irrefl _ (hafter e he)
    · by_cases heq : entry.1 = k
      · refine ⟨[], rest, by simp, fun e he => heq ▸ hhead e he, Or.inr ⟨entry.2, ?_, ?_, ?_⟩⟩
        · simp [findEntries, heq]
        · rw [← heq]; rfl
        · simp only [upsertEntries, if_neg hlt, if_pos heq, List.nil_append]
      · have hgt : r entry.1 k := by
          rcases trichotomous_of r k entry.1 with h | h | h
          · exact absurd h hlt
          · exact absurd h.symm heq
          · exact h
        obtain ⟨before, after, hbefore, hafter, hcase⟩ := ih hrest
        refine ⟨entry :: before, after, ?_, hafter, ?_⟩
        · intro e he
          rcases List.mem_cons.mp he with rfl | he
          · exact hgt
          · exact hbefore e he
        · have hfind : findEntries k (entry :: rest) = findEntries k rest := by
            simp [findEntries, heq]
          rcases hcase with ⟨hnone, rfl, hupsert⟩ | ⟨v, hsome, rfl, hupsert⟩
          · exact Or.inl ⟨hfind.trans hnone, rfl, by simp [upsertEntries, hlt, heq, hupsert]⟩
          · exact Or.inr ⟨v, hfind.trans hsome, rfl, by simp [upsertEntries, hlt, heq, hupsert]⟩

/-- Updating keeps the entries sorted. -/
theorem upsertEntries_sorted (k : κ) (default : ν) (f : ν → ν) {entries : List (κ × ν)}
    (hsorted : entries.Pairwise (fun a b => r a.1 b.1)) :
    (upsertEntries r k default f entries).Pairwise (fun a b => r a.1 b.1) := by
  obtain ⟨before, after, hbefore, hafter, hcase⟩ := upsertEntries_split r k default f hsorted
  have hcombine : ∀ v, before.Pairwise (fun a b => r a.1 b.1) →
      after.Pairwise (fun a b => r a.1 b.1) →
      (before ++ (k, v) :: after).Pairwise (fun a b => r a.1 b.1) := by
    intro v hb ha
    rw [List.pairwise_append]
    refine ⟨hb, List.pairwise_cons.mpr ⟨hafter, ha⟩, ?_⟩
    intro x hx y hy
    rcases List.mem_cons.mp hy with rfl | hy
    · exact hbefore x hx
    · exact trans_of r (hbefore x hx) (hafter y hy)
  rcases hcase with ⟨_, rfl, hupsert⟩ | ⟨v, _, rfl, hupsert⟩
  · obtain ⟨hb, ha, _⟩ := List.pairwise_append.mp hsorted
    rw [hupsert]
    exact hcombine _ hb ha
  · obtain ⟨hb, ha, _⟩ := List.pairwise_append.mp hsorted
    rw [hupsert]
    exact hcombine _ hb (List.pairwise_cons.mp ha).2

/-- An updated map holds the other entries of the original map and the new
value of the updated key. -/
theorem mem_upsertEntries {k : κ} {default : ν} {f : ν → ν} {entries : List (κ × ν)}
    (hsorted : entries.Pairwise (fun a b => r a.1 b.1)) {entry : κ × ν} :
    entry ∈ upsertEntries r k default f entries ↔
      (entry ∈ entries ∧ entry.1 ≠ k) ∨ entry = (k, f ((findEntries k entries).getD default)) := by
  obtain ⟨before, after, hbefore, hafter, hcase⟩ := upsertEntries_split r k default f hsorted
  have hb : ∀ e ∈ before, e.1 ≠ k := by
    rintro e he rfl
    exact irrefl _ (hbefore e he)
  have ha : ∀ e ∈ after, e.1 ≠ k := by
    rintro e he rfl
    exact irrefl _ (hafter e he)
  rcases hcase with ⟨hfind, heq, hupsert⟩ | ⟨v, hfind, heq, hupsert⟩
  · rw [hupsert, hfind, heq]
    simp only [List.mem_append, List.mem_cons, Option.getD_none]
    constructor
    · rintro (h | rfl | h)
      · exact Or.inl ⟨Or.inl h, hb _ h⟩
      · exact Or.inr rfl
      · exact Or.inl ⟨Or.inr h, ha _ h⟩
    · rintro (⟨h | h, _⟩ | rfl)
      · exact Or.inl h
      · exact Or.inr (Or.inr h)
      · exact Or.inr (Or.inl rfl)
  · rw [hupsert, hfind, heq]
    simp only [List.mem_append, List.mem_cons, Option.getD_some]
    constructor
    · rintro (h | rfl | h)
      · exact Or.inl ⟨Or.inl h, hb _ h⟩
      · exact Or.inr rfl
      · exact Or.inl ⟨Or.inr (Or.inr h), ha _ h⟩
    · rintro (⟨h | rfl | h, hne⟩ | rfl)
      · exact Or.inl h
      · exact absurd rfl hne
      · exact Or.inr (Or.inr h)
      · exact Or.inr (Or.inl rfl)

omit [DecidableRel r] in
/-- Erasing a present key leaves the two halves around it. -/
theorem eraseEntries_split {k : κ} {v : ν} {before after : List (κ × ν)}
    (hbefore : ∀ entry ∈ before, r entry.1 k) (hafter : ∀ entry ∈ after, r k entry.1) :
    eraseEntries k (before ++ (k, v) :: after) = before ++ after := by
  have hb : before.filter (fun entry => entry.1 ≠ k) = before := by
    rw [List.filter_eq_self]
    intro e he
    have hne : e.1 ≠ k := by rintro rfl; exact irrefl _ (hbefore e he)
    simpa using hne
  have ha : after.filter (fun entry => entry.1 ≠ k) = after := by
    rw [List.filter_eq_self]
    intro e he
    have hne : e.1 ≠ k := by rintro rfl; exact irrefl _ (hafter e he)
    simpa using hne
  simp only [eraseEntries, List.filter_append, hb, List.filter_cons, ne_eq, not_true_eq_false,
    decide_false, Bool.false_eq_true, if_false]
  simpa using ha

end Entries

/-! ## Renamed keys

Keys and values are replaced by others, and the new order compares the new keys as the
old order compares the old ones. -/

section Renamed

variable {κ' ν' : Type*} [DecidableEq κ] [DecidableEq κ'] {f : κ → κ'} {g : ν → ν'} {k : κ}
  {entries : List (κ × ν)}

/-- A search is not affected by new names. -/
theorem findEntries_map (hkeys : ∀ entry ∈ entries, f entry.1 = f k ↔ entry.1 = k) :
    findEntries (f k) (entries.map (Prod.map f g)) = (findEntries k entries).map g := by
  have hfound : entries.find? ((fun entry => decide (entry.1 = f k)) ∘ Prod.map f g) =
      entries.find? (fun entry => entry.1 = k) :=
    List.find?_congr fun entry hentry => by simp [hkeys entry hentry]
  unfold findEntries
  rw [List.find?_map, hfound, Option.map_map, Option.map_map]
  rfl

/-- Erasing is not affected by new names. -/
theorem eraseEntries_map (hkeys : ∀ entry ∈ entries, f entry.1 = f k ↔ entry.1 = k) :
    eraseEntries (f k) (entries.map (Prod.map f g)) =
      (eraseEntries k entries).map (Prod.map f g) := by
  unfold eraseEntries
  rw [List.filter_map]
  refine congrArg _ (List.filter_congr fun entry hentry => ?_)
  simp [hkeys entry hentry]

/-- Updating is not affected by new names. -/
theorem upsertEntries_map {r : κ → κ → Prop} [DecidableRel r] {r' : κ' → κ' → Prop}
    [DecidableRel r'] {default : ν} {update : ν → ν} {default' : ν'} {update' : ν' → ν'}
    (hdefault : update' default' = g (update default))
    (hupdate : ∀ v, update' (g v) = g (update v))
    (hkeys : ∀ entry ∈ entries, f entry.1 = f k ↔ entry.1 = k)
    (horder : ∀ entry ∈ entries, r' (f k) (f entry.1) ↔ r k entry.1) :
    upsertEntries r' (f k) default' update' (entries.map (Prod.map f g)) =
      (upsertEntries r k default update entries).map (Prod.map f g) := by
  induction entries with
  | nil => simp [upsertEntries, hdefault]
  | cons entry entries ih =>
    obtain ⟨hentry, hrest⟩ := List.forall_mem_cons.mp hkeys
    obtain ⟨hfirst, hothers⟩ := List.forall_mem_cons.mp horder
    have hnext := ih hrest hothers
    have hrenamed : (Prod.map f g entry).1 = f entry.1 := rfl
    rw [List.map_cons, upsertEntries, upsertEntries, hrenamed]
    by_cases hbefore : r k entry.1
    · rw [if_pos (hfirst.mpr hbefore), if_pos hbefore, hdefault]
      rfl
    · rw [if_neg fun h => hbefore (hfirst.mp h), if_neg hbefore]
      by_cases heq : entry.1 = k
      · rw [if_pos (hentry.mpr heq), if_pos heq, List.map_cons]
        exact congrArg (fun v => (f k, v) :: entries.map (Prod.map f g)) (hupdate entry.2)
      · rw [if_neg fun h => heq (hentry.mp h), if_neg heq, List.map_cons, hnext]

end Renamed

variable {r : κ → κ → Prop}

/-- The map without entries. -/
def empty : OrderedMap r ν := ⟨[], List.Pairwise.nil⟩

/-- Two maps with the same entries are equal. -/
@[ext] theorem ext {m m' : OrderedMap r ν} (h : m.entries = m'.entries) : m = m' := by
  cases m
  cases m'
  simpa using h

variable [DecidableEq κ]

/-- The value stored under a key, if there is one. -/
def find? (m : OrderedMap r ν) (k : κ) : Option ν := findEntries k m.entries

/-- The map without the entry stored under a key. -/
def erase (m : OrderedMap r ν) (k : κ) : OrderedMap r ν :=
  ⟨eraseEntries k m.entries, m.sorted.filter _⟩

/-- Replace a value by its image under `f`, creating it when it is absent. -/
def upsert [DecidableRel r] [IsStrictTotalOrder κ r] (m : OrderedMap r ν) (k : κ) (default : ν)
    (f : ν → ν) : OrderedMap r ν :=
  ⟨upsertEntries r k default f m.entries, upsertEntries_sorted r k default f m.sorted⟩

/-- Store a value under a key. -/
def insert [DecidableRel r] [IsStrictTotalOrder κ r] (m : OrderedMap r ν) (k : κ) (v : ν) :
    OrderedMap r ν := m.upsert k v (fun _ => v)

/-- The entries are the keys with the values found under them. -/
theorem mem_entries_iff [IsStrictTotalOrder κ r] (m : OrderedMap r ν) {k : κ} {v : ν} :
    (k, v) ∈ m.entries ↔ m.find? k = some v := by
  constructor
  · intro hmem
    obtain ⟨before, after, hsplit⟩ := List.append_of_mem hmem
    have hsorted := m.sorted
    rw [hsplit] at hsorted
    unfold find?
    rw [hsplit]
    refine findEntries_append_cons fun entry hentry heq => ?_
    have hbetter := (List.pairwise_append.mp hsorted).2.2 entry hentry _ List.mem_cons_self
    rw [heq] at hbetter
    exact irrefl _ hbetter
  · intro hfind
    obtain ⟨before, after, hsplit, -, -⟩ := findEntries_split r m.sorted hfind
    rw [hsplit]
    exact List.mem_append_right _ List.mem_cons_self

/-- An update changes the value of its key and no other value. -/
theorem find?_upsert [DecidableRel r] [IsStrictTotalOrder κ r] (m : OrderedMap r ν) (k k' : κ)
    (default : ν) (f : ν → ν) :
    (m.upsert k default f).find? k' =
      if k' = k then some (f ((m.find? k).getD default)) else m.find? k' := by
  refine Option.ext fun v => ?_
  rw [← mem_entries_iff]
  refine (mem_upsertEntries r m.sorted).trans ?_
  rw [mem_entries_iff, Prod.mk.injEq]
  by_cases h : k' = k
  · rw [if_pos h, Option.some.injEq]
    exact ⟨fun hcase => (hcase.resolve_left fun hne => hne.2 h).2.symm,
      fun heq => Or.inr ⟨h, heq.symm⟩⟩
  · rw [if_neg h]
    exact ⟨fun hcase => (hcase.resolve_right fun heq => h heq.1).1, fun hfind => Or.inl ⟨hfind, h⟩⟩

/-- Maps in which the same values are found are equal. -/
theorem ext_find? [IsStrictTotalOrder κ r] {m m' : OrderedMap r ν}
    (h : ∀ k, m.find? k = m'.find? k) : m = m' := by
  have hnodup : ∀ m : OrderedMap r ν, m.entries.Nodup := by
    intro m
    refine List.Pairwise.imp ?_ m.sorted
    rintro entry _ hr rfl
    exact irrefl _ hr
  have hperm : m.entries.Perm m'.entries := by
    refine (List.perm_ext_iff_of_nodup (hnodup m) (hnodup m')).mpr fun entry => ?_
    rw [mem_entries_iff, mem_entries_iff, h]
  exact ext (hperm.eq_of_pairwise (fun _ _ _ _ hr hr' => absurd hr' (asymm hr)) m.sorted m'.sorted)

omit [DecidableEq κ] in
/-- Entries whose keys form a sublist of the map's keys are sorted. -/
theorem sorted_of_keys_sublist (m : OrderedMap r ν) {entries : List (κ × ν)}
    (h : (entries.map Prod.fst).Sublist (m.entries.map Prod.fst)) :
    entries.Pairwise (fun a b => r a.1 b.1) :=
  List.pairwise_map.mp ((List.pairwise_map.mpr m.sorted).sublist h)

end OrderedMap
