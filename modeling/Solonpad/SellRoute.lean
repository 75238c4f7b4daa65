import Solonpad.HubSales

/-!
`SolonStockSellRoute.sol`: the converter's stock sold through the hub as sells this route owns, and the
hub it reads. An asset is known by its underlying. The route makes no other calls of the hub, and pushes
to it let nobody in. What the hub paid for each of its orders, and what went to the converter and to Ops
for each sale, is kept for the proofs.
-/

namespace Solonpad.SellRoute

open Checked
open Chain (Address)

inductive RouteError where
  | notConverter | badOrder | notHub | required | transferFailed | hubReverted
  deriving DecidableEq, Repr

abbrev Tx (α : Type) := Checked.Tx RouteError α

abbrev OrderId := Nat

structure Sale where
  hubId : Nat
  token : Address
  raw : Nat
  fees : Nat
  done : Bool

/-- What a sale came to: the fees left for it at first, and what went out when it was finalized. -/
structure Account where
  deposited : Nat
  toConverter : Nat
  toOps : Nat
  returned : Nat

structure State where
  hub : Hub.State
  sales : OrderId → Sale
  used : OrderId → Bool
  /-- The route's native balance. -/
  balance : Nat
  /-- By the hub's order. -/
  paidFor : Nat → Nat
  accounts : OrderId → Account
  finalized : List OrderId

structure Config where
  hub : Hub.Config
  route : Address
  converter : Address
  ops : Address
  real : route ≠ 0
  foreign : route ≠ hub.self

variable (c : Config)

def deployed (hub : Hub.State) (balance : Nat) : State where
  hub := hub
  sales := fun _ => ⟨0, 0, 0, 0, false⟩
  used := fun _ => false
  balance := balance
  paidFor := fun _ => 0
  accounts := fun _ => ⟨0, 0, 0, 0⟩
  finalized := []

/-- The hub's order of a sale. -/
def State.order (s : State) (id : OrderId) : Hub.Order := s.hub.orders (s.sales id).hubId

/-- The fee the endpoint quotes is the fee it takes, in one transaction. -/
def requestSell (s : State) (sender : Address) (id : OrderId) (asset raw grossFloor receiver value : Nat)
    (env : Hub.Env) : Tx State := do
  require (sender = c.converter ∧ receiver = c.converter) .notConverter
  require (id ≠ 0 ∧ s.used id = false ∧ (s.hub.terms.listings asset).listed = true ∧ raw ≠ 0) .badOrder
  let hub ← relay .transferFailed (s.hub.onArc asset (Chain.Token.transfer · c.converter c.route raw))
  let lzFee := env.lzFee
  require (lzFee ≤ value) .badOrder
  let hubId := hub.orderCount
  let hub ← relay .hubReverted
    (Hub.requestSell c.hub hub { env with sender := c.route, value := lzFee } asset raw grossFloor)
  pure { s with
    hub := hub
    used := Function.update s.used id true
    sales := Function.update s.sales id ⟨hubId, asset, raw, value - lzFee, false⟩
    balance := s.balance + (value - lzFee)
    accounts := Function.update s.accounts id ⟨value - lzFee, 0, 0, 0⟩ }

/-- What a sale is due: the gross proceeds less the hub's fee. -/
def target (o : Hub.Order) : Tx Nat :=
  let gross := o.rawOut * Hub.scale
  sub gross (gross * o.feeBps / 10000)

/-- What a claim pays, brings back and leaves of the Ops fees. -/
structure Outcome where
  status : Nat
  paid : Nat
  reminted : Nat
  fees : Nat

/-- The result as the hub has it; none while it has none. -/
def outcome (o : Hub.Order) (sale : Sale) : Tx (Option Outcome) :=
  if o.status = .filled ∧ o.outcome = some .sold then do
    let target ← target o
    let topUp := if o.amountOut < target then min (target - o.amountOut) sale.fees else 0
    pure (some ⟨1, o.amountOut + topUp, 0, sale.fees - topUp⟩)
  else if o.status = .cancelled ∧ o.outcome = some .failed then pure (some ⟨2, 0, sale.raw, sale.fees⟩)
  else pure none

/-- What is owed for the order is claimed first. -/
def pull (s : State) (sale : Sale) (env : Hub.Env) : Tx State :=
  let owed := (s.hub.orders sale.hubId).owed
  if owed ≠ 0 then do
    let hub ← relay .hubReverted (Hub.claim c.hub s.hub { env with sender := c.route } sale.hubId)
    pure { s with
      hub := hub
      balance := s.balance + owed
      paidFor := Function.update s.paidFor sale.hubId (s.paidFor sale.hubId + owed) }
  else pure s

/-- `accepted` says that the converter and Ops take what they are sent. -/
def finalize (s : State) (id : OrderId) (sale : Sale) (r : Outcome) (accepted : Bool) : Tx State := do
  require (accepted = true) .required
  let balance ← sub s.balance r.paid
  let hub ← if r.reminted ≠ 0 then
      relay .transferFailed (s.hub.onArc sale.token (Chain.Token.transfer · c.route c.converter r.reminted))
    else pure s.hub
  let balance ← sub balance r.fees
  pure { s with
    hub := hub
    sales := Function.update s.sales id { sale with done := true, fees := 0 }
    balance := balance
    accounts := Function.update s.accounts id { s.accounts id with
      toConverter := r.paid, toOps := r.fees, returned := r.reminted }
    finalized := s.finalized ++ [id] }

def claimSell (s : State) (sender : Address) (id : OrderId) (env : Hub.Env) (accepted : Bool) : Tx State := do
  require (sender = c.converter) .notConverter
  let sale := s.sales id
  require (s.used id = true ∧ sale.done = false) .badOrder
  let o := s.hub.orders sale.hubId
  let s ← pull c s sale env
  let result ← outcome o sale
  match result with
  | some r => finalize c s id sale r accepted
  | none => pure s

/-! The hub and its other callers. -/

/-- Whose `.sol` tokens a call moves. -/
def holder (call : Hub.Call) : Option Address :=
  match call.action with
  | .transferArc _ holder _ _ => some holder
  | _ => none

/-- A call that is not the route's; the route has code. -/
def Foreign (s : Hub.State) (call : Hub.Call) : Prop :=
  call.env.sender ≠ c.route ∧ holder call ≠ some c.route ∧
    ((s.orders (call.order s)).user = c.route → call.env.plainUser = false)

instance (s : Hub.State) (call : Hub.Call) : Decidable (Foreign c s call) := inferInstanceAs (Decidable (_ ∧ _))

/-- A call of the hub by another, with what it pays the route. -/
def elsewhere (s : State) (call : Hub.Call) : Tx State := do
  let id := call.order s.hub
  let hub ← relay .hubReverted (Hub.step c.hub s.hub call)
  if (s.hub.orders id).user = c.route then
    let paid := Hub.paidOut s.hub call hub
    pure { s with
      hub := hub
      balance := s.balance + paid
      paidFor := Function.update s.paidFor id (s.paidFor id + paid) }
  else pure { s with hub := hub }

inductive Action where
  | requestSell (sender : Address) (id : OrderId) (asset raw grossFloor receiver value : Nat) (env : Hub.Env)
  | claimSell (sender : Address) (id : OrderId) (env : Hub.Env) (accepted : Bool)
  | elsewhere (call : Hub.Call)
  /-- Coin the hub sends for something else. -/
  | received (amount : Nat)

def step (s : State) : Action → Tx State
  | .requestSell sender id asset raw grossFloor receiver value env =>
    requestSell c s sender id asset raw grossFloor receiver value env
  | .claimSell sender id env accepted => claimSell c s sender id env accepted
  | .elsewhere call => elsewhere c s call
  | .received amount => .ok { s with balance := s.balance + amount }

/-- The hub's other callers are not the route. -/
def Allowed (s : State) : Action → Prop
  | .elsewhere call => Foreign c s.hub call
  | _ => True

instance (s : State) : (action : Action) → Decidable (Allowed c s action)
  | .elsewhere call => inferInstanceAs (Decidable (Foreign c s.hub call))
  | .requestSell .. | .claimSell .. | .received _ => .isTrue trivial

def accepts (s : State) (action : Action) (after : State) : Prop := step c s action = .ok after

end Solonpad.SellRoute
