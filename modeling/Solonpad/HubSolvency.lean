import Solonpad.HubCalls
import Solonpad.Transition

/-!
The hub's money covers what it owes. Every move keeps that, as long as a sale the float pays is
covered in full; the float's own test leaves the sale's fee out, so one result can break it.
-/

namespace Solonpad.Hub

open Checked Chain Messages Transition

variable {c : Config} {m after : Money} {drawn : Nat}

def Solvent (m : Money) : Prop := m.liabilities ≤ m.balance

/-- What is free may be drawn. -/
theorem Solvent.spend (solvent : Solvent m) (free : drawn ≤ m.available)
    (covered : m.balance + after.liabilities ≤ after.balance + m.liabilities + drawn) : Solvent after := by
  unfold Solvent Money.available at *
  omega

theorem Entry.solvent {o next : Order} (entry : Entry m o after next drawn) (solvent : Solvent m)
    (free : drawn ≤ m.available) :
    Solvent after := solvent.spend free entry.covered

theorem move_solvent {p : Promises} {action : Action} {s after : State} (ample : p.ample)
    (solvent : Solvent s.money) (move : Move c p action s after) : Solvent after.money := by
  cases move with
  | controls | placesSell | sold | buyFailed | sellFailed | migrated | reviews | marks | outside
  | transfers => exact solvent
  | funds _ _ _ _ free covered => exact solvent.spend free covered
  | turned _ _ _ _ _ _ _ _ entry free => exact entry.solvent solvent free
  | floatPaid _ _ _ _ _ _ _ _ _ _ _ entry free => exact entry.solvent solvent (free ample)
  | placesBuy _ _ _ _ _ entry => exact entry.solvent solvent (Nat.zero_le _)
  | placesReward _ _ _ _ _ _ _ entry => exact entry.solvent solvent (Nat.zero_le _)
  | redeems _ _ _ _ _ _ _ _ _ entry => exact entry.solvent solvent (Nat.zero_le _)
  | launches _ _ _ _ _ _ _ _ _ _ _ entry => exact entry.solvent solvent (Nat.zero_le _)
  | sends _ _ _ _ _ _ _ _ _ entry => exact entry.solvent solvent (Nat.zero_le _)
  | delivers _ _ _ _ _ _ _ _ _ _ entry => exact entry.solvent solvent (Nat.zero_le _)
  | bought _ _ _ _ _ _ _ _ _ _ _ _ _ _ _ _ entry => exact entry.solvent solvent (Nat.zero_le _)
  | withdrawn _ _ _ _ _ _ _ _ _ _ entry => exact entry.solvent solvent (Nat.zero_le _)

theorem Moves.solvent {p : Promises} {action : Action} {s after : State} (ample : p.ample)
    (solvent : Solvent s.money) (moves : Moves c p action s after) : Solvent after.money := by
  induction moves with
  | refl => exact solvent
  | tail _ move ih => exact move_solvent ample ih move

/-- In every reachable state the books are regular. -/
theorem reachable_regular {s : State} (reached : Reachable (accepts c) (deployed c) s) : Regular s := by
  apply reached.invariant deployed_regular
  intro before call after regular taken
  exact (step_moves before after call regular taken).regular regular

theorem hub_solvent (c : Config) (s : State)
    (reached : Reachable (restrict (accepts c) Covered) (deployed c) s) :
    s.money.escrowed + s.money.accruedFees + s.money.claimableTotal ≤ s.money.balance := by
  have initially : Solvent (deployed c).money := Nat.le_refl 0
  have solvent : Solvent s.money := by
    induction reached with
    | start => exact initially
    | next earlier taken ih =>
      have regular := reachable_regular earlier.unrestricted
      exact (step_moves _ _ _ regular taken.2).solvent taken.1 ih
  exact solvent

/-! A run where the float pays a sale: its hub, and the calls up to the vault's result. -/

def sample : Config where
  self := 1
  owner := 2
  scheduler := 3
  floatRecipientA := 4
  floatRecipientB := 5
  treasury := 6
  opsVault := 7
  guardian := 8
  rewardManager := 9
  feeBps := 100
  real := by decide
  capped := by decide

/-- A plain call at a time when every window is fresh. -/
def by' (sender value : Nat) (action : Action) : Call where
  env := {
    sender := sender
    now := 10 ^ 6
    value := value
    accepts := fun _ => true
    answers := true
    plainUser := true
    proven := true
    lzFee := 1 }
  action := action

/-- The treasury gets shares from a migration and sells them; the float is then given `float`. -/
def soldFromFloat (float : Nat) : List Call :=
  [by' 2 0 (.listStock 50 30 0 60 1),
    by' 10 0 (.reconcile ⟨.migration 50 0, 50, .bought, 0, 10 ^ 18, 1⟩),
    by' 6 1 (.requestSell 50 (10 ^ 18) 0),
    by' 2 float .fundFloat,
    by' 2 0 (.setFloatEnabled true),
    by' 11 0 (.lzReceive 30 ⟨.order 0, 50, .sold, 10 ^ 18, 10 ^ 8, 2⟩)]

/-- With the sale's net amount in the float its fee is promised and not there. -/
theorem hub_insolvent : ∃ s, Reachable (restrict (accepts sample) Told) (deployed sample) s ∧
    ¬ s.money.escrowed + s.money.accruedFees + s.money.claimableTotal ≤ s.money.balance := by
  obtain ⟨s, reached, passed⟩ := run_passes (step sample) Told (soldFromFloat (99 * 10 ^ 18))
    (deployed sample) (fun s => decide (¬ s.money.escrowed + s.money.accruedFees +
      s.money.claimableTotal ≤ s.money.balance)) (by decide)
  exact ⟨s, reached, of_decide_eq_true passed⟩

/-- With the fee in the float as well the same sale is paid and covered. -/
theorem hub_solvent_sold : ∃ s, Reachable (restrict (accepts sample) Covered) (deployed sample) s ∧
    s.money.accruedFees = 10 ^ 18 ∧
    s.money.escrowed + s.money.accruedFees + s.money.claimableTotal ≤ s.money.balance := by
  obtain ⟨s, reached, passed⟩ := run_passes (step sample) Covered (soldFromFloat (10 ^ 20))
    (deployed sample) (fun s => decide (s.money.accruedFees = 10 ^ 18)) (by decide)
  exact ⟨s, reached, of_decide_eq_true passed, hub_solvent sample s reached⟩

end Solonpad.Hub
