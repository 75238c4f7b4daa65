import Solonpad.HubSolvency

/-!
The escrow and the claims are exact: each is the total of what the orders hold in it. Every move
rewrites one order and its ledgers together, so the sums follow the moves.
-/

namespace Solonpad.Hub

open Checked Chain Messages RunningTotal Transition

variable {c : Config} {s after : State}

structure Ledger (s : State) : Prop where
  escrowed : Totals (fun id => (s.orders id).inEscrow) s.money.escrowed
  claims : Totals (fun id => (s.orders id).owed) s.money.claimableTotal

theorem deployed_ledger : Ledger (deployed c) :=
  ⟨Totals.zero.of_eq (fun _ => rfl) rfl, Totals.zero.of_eq (fun _ => rfl) rfl⟩

/-- One order rewritten with its entry. -/
theorem Ledger.rewrite (ledger : Ledger s) (id : Nat) (next : Order) (drawn : Nat)
    (orders : after.orders = Function.update s.orders id next)
    (entry : Entry s.money (s.orders id) after.money next drawn) : Ledger after :=
  ⟨ledger.escrowed.rewrite (fun _ o => o.inEscrow) id next orders entry.escrow,
    ledger.claims.rewrite (fun _ o => o.owed) id next orders entry.claims⟩

theorem Ledger.place (ledger : Ledger s) (regular : Regular s) (o : Order)
    (orders : after.orders = Function.update s.orders s.orderCount o)
    (entry : Entry s.money Order.blank after.money o 0) : Ledger after := by
  have fresh := regular.fresh s.orderCount le_rfl
  exact ledger.rewrite s.orderCount o 0 orders (fresh ▸ entry)

theorem move_ledger {p : Promises} {action : Action} (trusted : p.trusted) (regular : Regular s)
    (ledger : Ledger s) (move : Move c p action s after) : Ledger after := by
  cases move with
  | controls | migrated | reviews | marks | outside | transfers =>
    exact ⟨ledger.escrowed, ledger.claims⟩
  | funds money _ escrow claims =>
    exact ⟨ledger.escrowed.of_eq (fun _ => rfl) escrow, ledger.claims.of_eq (fun _ => rfl) claims⟩
  | turned id next _ drawn _ _ _ _ entry => exact ledger.rewrite id next drawn rfl entry
  | floatPaid id next _ drawn _ _ _ _ _ _ _ entry => exact ledger.rewrite id next drawn rfl entry
  | placesBuy o _ _ _ _ entry => exact ledger.place regular o rfl entry
  | placesReward o _ _ _ _ _ _ entry => exact ledger.place regular o rfl entry
  | placesSell o _ _ _ _ _ entry => exact ledger.place regular o rfl entry
  | redeems o _ _ _ _ _ _ _ _ entry => exact ledger.place regular o rfl entry
  | launches id next _ _ _ _ _ _ _ _ _ entry => exact ledger.rewrite id next 0 rfl entry
  | sends id next _ _ _ _ _ _ _ entry => exact ledger.rewrite id next 0 rfl entry
  | delivers id next _ _ _ _ _ _ _ _ entry => exact ledger.rewrite id next 0 rfl entry
  | bought id _ _ next _ _ _ _ _ _ _ _ _ _ _ _ entry => exact ledger.rewrite id next 0 rfl entry
  | sold id _ _ next _ _ _ _ _ _ _ _ _ _ _ entry => exact ledger.rewrite id next 0 rfl entry
  | buyFailed id _ _ next _ _ _ _ _ _ _ _ _ entry =>
    exact ledger.rewrite id next 0 rfl (entry trusted)
  | sellFailed id _ _ next _ _ _ _ _ _ _ _ _ _ _ entry =>
    exact ledger.rewrite id next 0 rfl entry
  | withdrawn id next _ _ _ _ _ _ _ _ entry => exact ledger.rewrite id next 0 rfl entry

theorem Moves.ledger {p : Promises} {action : Action} (trusted : p.trusted) (regular : Regular s)
    (ledger : Ledger s) (moves : Moves c p action s after) : Ledger after := by
  induction moves with
  | refl => exact ledger
  | tail earlier move ih => exact move_ledger trusted (Moves.regular regular earlier) ih move

theorem reachable_ledger (reached : Reachable (restrict (accepts c) Told) (deployed c) s) : Ledger s := by
  induction reached with
  | start => exact deployed_ledger
  | next earlier taken ih =>
    have regular := reachable_regular earlier.unrestricted
    exact (step_moves _ _ _ regular taken.2).ledger taken.1 regular ih

end Solonpad.Hub
