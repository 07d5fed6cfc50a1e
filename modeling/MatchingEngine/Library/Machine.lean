import Mathlib.Data.List.Induction

/-!
# Machines that answer each input with a list of outputs

A machine consumes one input at a time, moves to its next state and emits any
number of outputs. A run concatenates the outputs. The induction rule of this
file carries a property of the whole output history together with the state
reached, so a safety property needs only its starting case and one step.
-/

variable {σ ι ο : Type*}

/-- A deterministic transition function with a list of outputs per input. -/
structure Machine (σ ι ο : Type*) where
  /-- The outputs of one input and the next state. -/
  step : σ → ι → List ο × σ

namespace Machine

variable (m : Machine σ ι ο)

/-- All outputs of a list of inputs and the state reached. -/
def run (s : σ) : List ι → List ο × σ
  | [] => ([], s)
  | i :: is => ((m.step s i).1 ++ (run (m.step s i).2 is).1, (run (m.step s i).2 is).2)

@[simp] theorem run_nil (s : σ) : m.run s [] = ([], s) := rfl

theorem run_cons (s : σ) (i : ι) (is : List ι) :
    m.run s (i :: is) =
      ((m.step s i).1 ++ (m.run (m.step s i).2 is).1, (m.run (m.step s i).2 is).2) := rfl

/-- A run of a concatenation continues from the state the first part reached. -/
theorem run_append (s : σ) (is js : List ι) :
    m.run s (is ++ js) =
      ((m.run s is).1 ++ (m.run (m.run s is).2 js).1, (m.run (m.run s is).2 js).2) := by
  induction is generalizing s with
  | nil => simp
  | cons i is ih => simp only [List.cons_append, run_cons, ih, List.append_assoc]

/-- One more input appends its outputs to the history. -/
theorem run_concat (s : σ) (is : List ι) (i : ι) :
    m.run s (is ++ [i]) =
      ((m.run s is).1 ++ (m.step (m.run s is).2 i).1, (m.step (m.run s is).2 i).2) := by
  simp only [run_append, run_cons, run_nil, List.append_nil]

/-- Every output of a run is an output of one of its steps. -/
theorem mem_run_iff {s : σ} {is : List ι} {o : ο} :
    o ∈ (m.run s is).1 ↔
      ∃ earlier i later, is = earlier ++ i :: later ∧ o ∈ (m.step (m.run s earlier).2 i).1 := by
  induction is generalizing s with
  | nil => simp
  | cons i is ih =>
    rw [run_cons, List.mem_append, ih]
    constructor
    · rintro (h | ⟨earlier, j, later, rfl, h⟩)
      · exact ⟨[], i, is, rfl, h⟩
      · exact ⟨i :: earlier, j, later, rfl, h⟩
    · rintro ⟨earlier, j, later, heq, h⟩
      cases earlier with
      | nil =>
        cases heq
        exact Or.inl h
      | cons k earlier =>
        cases heq
        exact Or.inr ⟨earlier, j, later, rfl, h⟩

/-- A property of history and state that holds at the start and survives every
step holds after every run. -/
theorem run_induction {P : List ο → σ → Prop} {s : σ} (hstart : P [] s)
    (hstep : ∀ outs t i, P outs t → P (outs ++ (m.step t i).1) (m.step t i).2) (is : List ι) :
    P (m.run s is).1 (m.run s is).2 := by
  induction is using List.reverseRecOn with
  | nil => exact hstart
  | append_singleton is i ih =>
    rw [run_concat]
    exact hstep _ _ _ ih

/-- The machine that shows an image of every output. -/
def mapOutputs {ο' : Type*} (f : ο → ο') : Machine σ ι ο' where
  step s i := ((m.step s i).1.map f, (m.step s i).2)

/-- Showing images of the outputs does not change the states of a run. -/
theorem run_mapOutputs {ο' : Type*} (f : ο → ο') (s : σ) (is : List ι) :
    (m.mapOutputs f).run s is = ((m.run s is).1.map f, (m.run s is).2) := by
  induction is generalizing s with
  | nil => rfl
  | cons i is ih =>
    rw [run_cons, run_cons, ih, List.map_append]
    rfl

/-! ## Simulation -/

section Simulation

variable {σ' ι' ο' γ : Type*} (m' : Machine σ' ι' ο') (translate : σ → ι → Option ι')

/-- The inputs of a run as another machine gets them: each of them translated, or left
out, as the state in which it arrives demands. -/
def translateRun (s : σ) : List ι → List ι'
  | [] => []
  | i :: is => (translate s i).toList ++ translateRun (m.step s i).2 is

/-- When no input is left out and the state does not matter, all of them are mapped. -/
theorem translateRun_some (f : ι → ι') (s : σ) (is : List ι) :
    m.translateRun (fun _ i => some (f i)) s is = is.map f := by
  induction is generalizing s with
  | nil => rfl
  | cons i is ih =>
    rw [translateRun, ih]
    rfl

/-- Two machines whose states are related stay related and show the same outputs when the
second one gets the translated inputs, provided that each single input keeps them so. -/
theorem run_translateRun (view : ο → Option γ) (view' : ο' → Option γ) {R : σ → σ' → Prop}
    {P : ι → Prop}
    (hstep : ∀ s s' i, R s s' → P i →
      (m'.run s' (translate s i).toList).1.filterMap view' = (m.step s i).1.filterMap view ∧
        R (m.step s i).2 (m'.run s' (translate s i).toList).2)
    {s : σ} {s' : σ'} (hstart : R s s') {is : List ι} (his : ∀ i ∈ is, P i) :
    (m'.run s' (m.translateRun translate s is)).1.filterMap view' =
        (m.run s is).1.filterMap view ∧
      R (m.run s is).2 (m'.run s' (m.translateRun translate s is)).2 := by
  induction is generalizing s s' with
  | nil => exact ⟨rfl, hstart⟩
  | cons i is ih =>
    obtain ⟨houtputs, hnext⟩ := hstep s s' i hstart (his i List.mem_cons_self)
    obtain ⟨hrest, hend⟩ := ih hnext fun j hj => his j (List.mem_cons_of_mem _ hj)
    rw [translateRun, run_append, run_cons, List.filterMap_append, List.filterMap_append,
      houtputs, hrest]
    exact ⟨rfl, hend⟩

end Simulation

/-- A state is reachable if some list of inputs leads to it. -/
def Reachable (s t : σ) : Prop := ∃ is, (m.run s is).2 = t

/-- A property of states that holds at the start and survives every step holds
of every reachable state. -/
theorem Reachable.invariant {P : σ → Prop} {s t : σ} (hreach : m.Reachable s t) (hstart : P s)
    (hstep : ∀ t i, P t → P (m.step t i).2) : P t := by
  obtain ⟨is, rfl⟩ := hreach
  exact m.run_induction (P := fun _ t => P t) hstart (fun _ t i h => hstep t i h) is

end Machine
