import Solonpad.HubFills
import Solonpad.HubFrames
import Solonpad.HubSolvency

/-!
Money that comes back for a buy whose stock is already there. What was held before the result is tested as one
amount, every later return on its own, so the size of the pieces decides who gets them.
-/

namespace Solonpad.Hub

open Checked Chain Messages Transition

variable {c : Config} {s after : State}

/-! Who late money is for. -/

inductive Payee where
  | treasury
  | ops
  | user
deriving DecidableEq, Repr

def Order.payee (o : Order) (amount : Nat) : Payee :=
  if o.kind = .buy ∧ o.outcome = some .bought ∧ isBack amount o.amountIn then .treasury
  else if o.lane = 1 then .ops else .user

/-- One payment of late money, and whether its receiver refused it. -/
structure Piece where
  amount : Nat
  refused : Bool
deriving DecidableEq, Repr

/-- What the order's user gets of it. A refused payment waits in the order's `owed`, which the user claims. -/
def Order.gets (o : Order) (p : Piece) : Nat :=
  match o.payee p.amount with
  | .user => p.amount
  | .treasury => if p.refused = true ∧ o.lane ≠ 1 then p.amount else 0
  | .ops => 0

/-- What the pieces below half of a principal add up to. -/
def small (due : Nat) (pieces : List Piece) : Nat :=
  ((pieces.filter fun p => ¬ isBack p.amount due).map Piece.amount).sum

section

variable {o : Order} (buy : o.kind = .buy) (outcome : o.outcome = some .bought) (lane : o.lane ≠ 1)

include buy outcome lane

end

/-! Which call fills a buy. -/

variable {p : Promises} {a : Action} {own : Nat} {o : Order} {id : Nat} {call : Call} {run : Returned}

/-- Not a buy that is filled. -/
def Order.Unfilled (o : Order) : Prop := ¬ (o.kind = .buy ∧ o.status = .filled)

instance (o : Order) : Decidable o.Unfilled := inferInstanceAs (Decidable (¬ _))

theorem unfilled_status (live : o.status ≠ .filled) : o.Unfilled := fun both => live both.2

theorem unfilled_sell (sell : o.kind = .sell) : o.Unfilled := by
  rintro ⟨buy, _⟩
  cases sell.symm.trans buy

theorem Turn.unfilled {next : Order} (turn : Turn o next) (deal : next.deal = o.deal) (before : o.Unfilled) :
    next.Unfilled := by
  obtain ⟨_, _, kind, _⟩ := deal_spec deal
  cases turn with
  | keeps phase =>
    rw [Order.Unfilled, kind, (phase_spec phase).1]
    exact before
  | refunded _ _ _ _ phase => exact unfilled_status (by simp [(phase_spec phase).1])
  | floatRefunded _ _ _ phase => exact unfilled_status (by simp [(phase_spec phase).1])
  | closed _ _ phase => exact unfilled_status (by simp [(phase_spec phase).1])
  | paid sell => exact unfilled_sell (kind.trans sell)

/-- What comes back for a filled buy and is not needed: what was held when it was filled, then each return. -/
def Call.late (c : Config) (s : State) (call : Call) (after : State) (id : Nat) : Option Piece :=
  if (after.orders id).Unfilled then none
  else if (s.orders id).Unfilled then
    -- the fill first pays back the order's own reserve
    let paid := pay c s call.env 0 id (s.reserveTo id) (s.orders id).extra false
    some ⟨(s.orders id).held,
      decide ¬ (call.env.accepts 1 = true ∧ (s.orders id).held ≤ paid.money.balance)⟩
  else
    match call.action with
    | .receiveReturn own => if own = id then some ⟨call.env.value, decide ¬ call.env.accepts 0 = true⟩ else none
    | _ => none

/-- The piece is paid by the hub's own rule, after whatever else the call did. -/
def Paid (c : Config) (s : State) (env : Env) (id : Nat) (p : Piece) (after : State) : Prop :=
  ∃ middle : State, ∃ k, middle.roles = s.roles ∧
    (p.refused = true ↔ ¬ (env.accepts k = true ∧ p.amount ≤ middle.money.balance)) ∧
    after.money = (pay c middle env k id (lateTo middle (after.orders id) p.amount) p.amount false).money

/-- The hub with the late money of each filled buy, and what its user got of it. -/
structure Returned where
  hub : State
  pieces : Nat → List Piece
  given : Nat → Nat

def Returned.deployed (c : Config) : Returned := ⟨Hub.deployed c, fun _ => [], fun _ => 0⟩

def Returned.note (run : Returned) (c : Config) (call : Call) (after : State) : Returned where
  hub := after
  pieces := fun id => run.pieces id ++ (call.late c run.hub after id).toList
  given := fun id => run.given id + ((call.late c run.hub after id).toList.map (after.orders id).gets).sum

def Returned.step (c : Config) (run : Returned) (call : Call) : Tx Returned := do
  let after ← Hub.step c run.hub call
  pure (run.note c call after)

def returned (c : Config) (run : Returned) (call : Call) (next : Returned) : Prop := run.step c call = .ok next

/-- The books of late money. -/
structure Accounted (run : Returned) (id : Nat) : Prop where
  none : (run.hub.orders id).Unfilled → run.pieces id = [] ∧ run.given id = 0
  all : ¬ (run.hub.orders id).Unfilled →
    run.given id = ((run.pieces id).map (run.hub.orders id).gets).sum

end Solonpad.Hub
