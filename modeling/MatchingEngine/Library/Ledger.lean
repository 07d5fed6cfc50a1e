import Mathlib.Data.Finmap
import Mathlib.Logic.Function.Basic

/-!
# Ledgers of quantities that are used up

A ledger opens an account under a key with a quantity, books amounts traded
against that quantity, and closes the account with a note on how it ended. A key
may be used again once its account is closed. Bookings that do not fit are
counted, so a ledger without strays describes disjoint spans of each key. The
three rules say what each booking does to the outstanding quantities.
-/

/-- The quantity an account was opened with and the sum of what it has traded. -/
structure Account where
  quantity : ℤ
  traded : ℤ

/-- What an account has not traded yet. -/
def Account.outstanding (account : Account) : ℤ := account.quantity - account.traded

/-- The running accounts, the closed ones in closing order, and the number of
bookings that did not fit. -/
structure Ledger (κ ε : Type*) where
  running : Finmap (fun _ : κ => Account)
  ended : List (κ × Account × ε)
  strays : ℕ

namespace Ledger

variable {κ ε : Type*} [DecidableEq κ]

/-- The ledger without accounts. -/
def empty : Ledger κ ε := ⟨∅, [], 0⟩

/-- Open an account. -/
def start (ledger : Ledger κ ε) (k : κ) (quantity : ℤ) : Ledger κ ε :=
  match ledger.running.lookup k with
  | some _ => { ledger with strays := ledger.strays + 1 }
  | none => { ledger with running := ledger.running.insert k ⟨quantity, 0⟩ }

/-- Book a traded amount. -/
def trade (ledger : Ledger κ ε) (k : κ) (amount : ℤ) : Ledger κ ε :=
  match ledger.running.lookup k with
  | none => { ledger with strays := ledger.strays + 1 }
  | some account =>
      { ledger with
        running := ledger.running.insert k { account with traded := account.traded + amount } }

/-- Close an account. -/
def finish (ledger : Ledger κ ε) (k : κ) (ending : ε) : Ledger κ ε :=
  match ledger.running.lookup k with
  | none => { ledger with strays := ledger.strays + 1 }
  | some account =>
      { ledger with
        running := ledger.running.erase k
        ended := ledger.ended ++ [(k, account, ending)] }

/-- The outstanding quantities of the running accounts. -/
def outstanding (ledger : Ledger κ ε) (k : κ) : Option ℤ :=
  (ledger.running.lookup k).map Account.outstanding

/-- A booking that fits sets the outstanding quantity of its key and is no stray. -/
structure Sets (ledger ledger' : Ledger κ ε) (k : κ) (value : Option ℤ) : Prop where
  /-- Only the outstanding quantity of the key changes. -/
  outstanding : ledger'.outstanding = Function.update ledger.outstanding k value
  /-- The booking fits. -/
  strays : ledger'.strays = ledger.strays

theorem outstanding_insert (running : Finmap (fun _ : κ => Account))
    (ended : List (κ × Account × ε)) (strays : ℕ) (k : κ) (account : Account) :
    outstanding ⟨running.insert k account, ended, strays⟩ =
      Function.update (outstanding ⟨running, ended, strays⟩) k (some account.outstanding) := by
  funext k'
  by_cases h : k' = k
  · subst h
    simp [outstanding]
  · rw [Function.update_of_ne h, outstanding, Finmap.lookup_insert_of_ne _ h]
    rfl

/-- An account is opened under a free key with its whole quantity outstanding. -/
theorem start_sets {ledger : Ledger κ ε} {k : κ} (hfree : ledger.outstanding k = none)
    (quantity : ℤ) :
    ledger.Sets (ledger.start k quantity) k (some quantity) ∧
      (ledger.start k quantity).ended = ledger.ended := by
  have hnone : ledger.running.lookup k = none := Option.map_eq_none_iff.mp hfree
  unfold start
  rw [hnone]
  refine ⟨⟨?_, rfl⟩, rfl⟩
  rw [outstanding_insert, show Account.outstanding ⟨quantity, 0⟩ = quantity from sub_zero quantity]

/-- A trade of a running account reduces what is outstanding. -/
theorem trade_sets {ledger : Ledger κ ε} {k : κ} {rest : ℤ}
    (hrunning : ledger.outstanding k = some rest) (amount : ℤ) :
    ledger.Sets (ledger.trade k amount) k (some (rest - amount)) ∧
      (ledger.trade k amount).ended = ledger.ended := by
  obtain ⟨account, hlookup, rfl⟩ := Option.map_eq_some_iff.mp hrunning
  unfold trade
  rw [hlookup]
  refine ⟨⟨?_, rfl⟩, rfl⟩
  rw [outstanding_insert]
  unfold Account.outstanding
  rw [sub_sub]

/-- A trade between two running accounts reduces what is outstanding in both. -/
theorem trade_trade_sets {ledger : Ledger κ ε} {k k' : κ} {rest rest' : ℤ}
    (hrunning : ledger.outstanding k = some rest) (hrunning' : ledger.outstanding k' = some rest')
    (hne : k' ≠ k) (amount : ℤ) :
    ((ledger.trade k amount).trade k' amount).outstanding =
        Function.update (Function.update ledger.outstanding k (some (rest - amount))) k'
          (some (rest' - amount)) ∧
      ((ledger.trade k amount).trade k' amount).strays = ledger.strays ∧
      ((ledger.trade k amount).trade k' amount).ended = ledger.ended := by
  obtain ⟨⟨hfirst, hstrays⟩, hended⟩ := trade_sets hrunning amount
  have hother : (ledger.trade k amount).outstanding k' = some rest' := by
    rw [hfirst, Function.update_of_ne hne, hrunning']
  obtain ⟨⟨hsecond, hstrays'⟩, hended'⟩ := trade_sets hother amount
  refine ⟨?_, hstrays'.trans hstrays, hended'.trans hended⟩
  rw [hsecond, hfirst]

/-- Closing a running account notes it with what it had outstanding. -/
theorem finish_sets {ledger : Ledger κ ε} {k : κ} {rest : ℤ}
    (hrunning : ledger.outstanding k = some rest) (ending : ε) :
    ledger.Sets (ledger.finish k ending) k none ∧
      ∃ account : Account, account.outstanding = rest ∧
        (ledger.finish k ending).ended = ledger.ended ++ [(k, account, ending)] := by
  obtain ⟨account, hlookup, hrest⟩ := Option.map_eq_some_iff.mp hrunning
  unfold finish
  rw [hlookup]
  refine ⟨⟨?_, rfl⟩, account, hrest, rfl⟩
  funext k'
  by_cases h : k' = k
  · subst h
    simp [outstanding]
  · rw [Function.update_of_ne h, outstanding, Finmap.lookup_erase_ne h]
    rfl

end Ledger
