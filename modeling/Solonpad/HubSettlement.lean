import Solonpad.HubOrders

/-!
The settlement rules of `HubSettlement.sol`: funding a queued buy, giving money back, holding
what a route returns until the vault's result decides, and what each result does to its order.
-/

namespace Solonpad.Hub

open Checked Chain Messages

variable (c : Config)

/-- Principal or proceeds sized: at least half of what is due. -/
def isBack (amount due : Nat) : Prop := due ≤ amount * 2 ∧ amount ≠ 0

instance (amount due : Nat) : Decidable (isBack amount due) := inferInstanceAs (Decidable (_ ∧ _))

/-- `_lateTo`: who money for an answered order belongs to. -/
def lateTo (s : State) (o : Order) (amount : Nat) : Address :=
  if o.kind = .buy ∧ o.outcome = some .bought ∧ isBack amount o.amountIn then s.roles.treasury
  else if o.lane = 1 then s.roles.opsVault else o.user

/-! The reward lane. -/

def beginReward (s : State) (env : Env) (orderId : CapKey) (underlying : Address)
    (budget18 minRawOut : Nat) (receiver : Address) (path : Nat) : Tx State := do
  let t := s.capacity.tickets orderId
  require (¬ (path ≠ (s.terms.listings underlying).routePath ∨ s.rewardOrder orderId ≠ 0 ∨
    t.state ≠ .reserved ∨ t.lane ≠ 1 ∨ t.sent = true ∨ t.usd ≠ budget18 ∨ budget18 % scale ≠ 0 ∨
    env.value < budget18)) .badRewardOrder
  let fee := budget18 * s.terms.buyFeeBps / bps
  let value ← sub env.value budget18
  require (¬ value < fee) .insufficientValue
  let id := s.orderCount
  let placed ← placeBuy s env receiver underlying budget18 minRawOut (value - fee) 1 fee
  let s := placed.state
  let s := s.set id { s.orders id with capKey := orderId }
  pure { s with rewardOrder := Function.update s.rewardOrder orderId (id + 1) }

/-- `takeReward`, with what it hands over: status, shares, refund. -/
def takeReward (s : State) (env : Env) (orderId : CapKey) : Tx (State × Nat × Nat × Nat) := do
  let idx := s.rewardOrder orderId
  require (idx ≠ 0) .badRewardOrder
  let id := idx - 1
  let o := s.orders id
  require (env.sender = o.user) .notYours
  if o.custodyRaw ≠ 0 then do
    let raw := o.custodyRaw
    let s ← (s.set id { o with custodyRaw := 0 }).onArc o.underlying
      (Token.transfer · c.self o.user raw)
    pure (s, 1, raw, 0)
  else if o.refundReady ≠ 0 then do
    let refund18 := o.refundReady
    let s ← (s.set id { o with refundReady := 0 }).unescrow refund18
    let s ← transfer c s env 0 o.user refund18
    pure (s, 2, 0, refund18)
  else pure (s, 0, 0, 0)

/-! Giving a buy back. -/

/-- `refundBuy`: everything of a buy whose principal never left. -/
def refundBuy (s : State) (env : Env) (id : Nat) : Tx State := do
  let o := s.orders id
  let s := s.set id { o with status := .cancelled, settledAt := env.now }
  let s ← removeOpen s id
  let amount := o.amountIn + o.fee + o.extra + o.held
  let s := s.set id { s.orders id with extra := 0, held := 0 }
  let s ← s.unescrow amount
  if o.lane = 1 then do
    let s := s.set id { s.orders id with refundReady := o.amountIn }
    pure (pay c (s.escrow o.amountIn) env 0 id s.roles.opsVault (amount - o.amountIn) false)
  else pure (pay c s env 0 id o.user amount false)

/-- The float may stand in for a principal that is still out. -/
def Settlement.requestCancel (s : State) (env : Env) (id : Nat) : Tx State := do
  let o := s.orders id
  let s := s.set id { o with cancelRequested := true }
  if s.terms.floatEnabled = true ∧ o.lane = 0 ∧ o.status = .dispatched ∧ o.held = 0 ∧
      o.amountIn ≤ s.money.available then do
    let s := s.set id { s.orders id with
      advanced := true, status := .cancelled, settledAt := env.now }
    let s ← removeOpen s id
    let amount := o.amountIn + o.fee + o.extra
    let s ← s.unescrow (o.fee + o.extra)
    let s := s.set id { s.orders id with extra := 0 }
    pure (pay c s env 0 id o.user amount true)
  else pure s

def cancelBuy (s : State) (env : Env) (id : Nat) : Tx State := do
  let o := s.orders id
  require (¬ (o.user ≠ env.sender ∨ o.lane ≠ 0)) .notYours
  require (o.kind = .buy) .wrongKind
  if o.status = .pending then do
    require (¬ env.now < o.createdAt + cancelAfter) .tooEarly
    refundBuy c s env id
  else do
    require (¬ (o.status ≠ .funded ∧ o.status ≠ .dispatched ∨ o.cancelRequested = true)) .wrongStatus
    require (¬ env.now < o.dispatchedAt + cancelAfter) .tooEarly
    Settlement.requestCancel c s env id

/-- False when the order was refunded or must queue again. The route may
send back the dust its chain cannot carry. -/
def Settlement.launch (s : State) (env : Env) (id routeFee dust : Nat) : Tx (State × Bool) := do
  let o := s.orders id
  require (env.answers = true) .badQuote
  let fits ← (if o.extra < routeFee then pure false
    else if o.lane = 0 then Capacity.canReserveFor s.capacity 0 o.underlying o.amountIn
    else pure true : Tx Bool)
  if fits = false then
    if o.lane = 0 then do
      let s ← refundBuy c s env id
      pure (s, false)
    else pure (s, false)
  else do
    let s ← (if o.lane = 0 then
        s.onCapacity (Capacity.reservePublicFor · c.self o.capKey o.underlying o.amountIn)
      else pure s : Tx State)
    let s ← s.onCapacity (Capacity.markSent · c.self o.capKey)
    let s ← (s.set id { o with extra := o.extra - routeFee }).unescrow (o.amountIn + routeFee)
    let s := s.set id { s.orders id with status := .funded, dispatchedAt := env.now }
    require (o.amountIn + routeFee ≤ s.money.balance) .transferFailed
    let s := { s with money := { s.money with balance := s.money.balance - (o.amountIn + routeFee) } }
    pure (s.deposit dust, true)

/-! Money that comes back. -/

/-- `_closeReturnedBuy`; `force` when the principal is delivered on the reserve chain instead. -/
def closeReturnedBuy (s : State) (env : Env) (id : Nat) (force : Bool) : Tx State := do
  let o := s.orders id
  let pool := o.held + o.fee + o.extra
  if force = false ∧ ¬ isBack o.held o.amountIn then pure s
  -- reward principal comes back whole
  else if o.lane = 1 ∧ pool < o.amountIn then pure s
  else do
    let s := s.set id { o with status := .cancelled, settledAt := env.now }
    let s ← removeOpen s id
    let s := s.set id { s.orders id with held := 0, extra := 0, fee := 0 }
    if o.lane = 0 then do
      let s ← s.unescrow pool
      pure (pay c s env 0 id o.user pool false)
    else do
      let leftover ← sub pool o.amountIn
      let s ← (s.set id { s.orders id with refundReady := o.amountIn }).unescrow leftover
      if 0 < leftover then pure (pay c s env 0 id s.roles.opsVault leftover false) else pure s

/-- `_payHeldProceeds`. -/
def payHeldProceeds (s : State) (env : Env) (id : Nat) : Tx State := do
  let o := s.orders id
  let pool := o.held
  if ¬ isBack pool o.amountOut then pure s
  else do
    let s ← (s.set id { o with held := 0 }).unescrow pool
    let fee := if o.fee < pool then o.fee else pool
    let s := s.accrue fee
    let s := s.set id { s.orders id with fee := fee, amountOut := pool - fee, status := .filled }
    let s ← removeOpen s id
    pure (pay c s env 0 id o.user (pool - fee) false)

/-- `_flushHeld`: the `k`-th push of its call. -/
def flushHeld (s : State) (env : Env) (k id : Nat) : Tx State := do
  let o := s.orders id
  let h := o.held
  if h = 0 then pure s
  else do
    let s ← (s.set id { o with held := 0 }).unescrow h
    pure (pay c s env k id (lateTo s { o with held := 0 } h) h false)

/-- The money is already in the hub. -/
def Settlement.receiveReturn (s : State) (env : Env) (id amount : Nat) : Tx State := do
  let o := s.orders id
  let closed := o.status = .filled ∨ o.status = .cancelled
  if o.advanced = true then pure s
  else if o.outcome = none ∧ ¬ closed ∨ o.status = .returning ∨ o.status = .proceeds then do
    let s := (s.set id { o with held := o.held + amount }).escrow amount
    if o.status = .returning then closeReturnedBuy c s env id false
    else if o.status = .proceeds then payHeldProceeds c s env id
    else pure s
  else pure (pay c s env 0 id (lateTo s o amount) amount false)

def Settlement.subsidize (s : State) (env : Env) (id amount : Nat) : Tx State := do
  let o := s.orders id
  let s := (s.set id { o with extra := o.extra + amount }).escrow amount
  if o.status = .returning ∧ o.held ≠ 0 then closeReturnedBuy c s env id false else pure s

/-! Results. -/

def unanswered (o : Order) : Prop :=
  o.outcome = none ∧ (o.status = .dispatched ∨ o.kind = .buy ∧ o.status = .escalated)

instance (o : Order) : Decidable (unanswered o) := inferInstanceAs (Decidable (_ ∧ _))

/-- The vault's raw result, minted and booked against the order's reservation. -/
def issue (s : State) (env : Env) (o : Order) (recipient : Address) (r : Result)
    (canonical : Bool) : Tx State := do
  let s ← mint s env o.underlying recipient r.amountOut canonical
  let s ← s.onCapacity (Capacity.finalizeBuy · c.self o.capKey o.underlying r.amountOut)
  if canonical then s.onCapacity (Capacity.markReviewed · c.self o.capKey) else pure s

def settleBought (s : State) (env : Env) (id : Nat) (r : Result) (canonical : Bool) :
    Tx (State × Bool) := do
  let o := s.orders id
  if o.kind ≠ .buy then pure (s, false)
  else if o.status = .cancelled ∧ o.advanced = true ∧ o.orphaned = false ∧ o.outcome = none then do
    -- the float refunded the order already; the stock is real, so it goes to the treasury
    let s ← issue c s env o s.roles.treasury r canonical
    let s := s.set id { o with orphaned := true, rawOut := r.amountOut, outcome := some .bought }
    pure (markSettled s env.now id r.ref canonical, true)
  else if ¬ unanswered o then pure (s, false)
  else do
    let s ← issue c s env o (if o.lane = 1 then c.self else o.user) r canonical
    let s := s.set id { o with
      status := .filled, settledAt := env.now, amountOut := r.amountOut, rawOut := r.amountOut
      outcome := some .bought }
    let s ← s.unescrow o.fee
    let s := s.accrue o.fee
    let left := o.extra
    let s := s.set id { s.orders id with
      custodyRaw := if o.lane = 1 then r.amountOut else o.custodyRaw, extra := 0 }
    let s ← s.unescrow left
    let s := pay c s env 0 id (if o.lane = 1 then s.roles.opsVault else o.user) left false
    let s ← flushHeld c s env 1 id
    let s ← removeOpen s id
    pure (markSettled s env.now id r.ref canonical, true)

def settleSold (s : State) (env : Env) (id : Nat) (r : Result) (canonical : Bool) :
    Tx (State × Bool) := do
  let o := s.orders id
  if o.kind = .buy then pure (s, false)
  else if ¬ (o.status = .dispatched ∨ o.status = .pending ∨ o.status = .escalated) ∨
      o.outcome ≠ none then pure (s, false)
  else do
    let gross := r.amountOut * scale
    let fee := gross * o.feeBps / bps
    let net ← sub gross fee
    let s := s.set id { o with
      settledAt := env.now, fee := fee, rawOut := r.amountOut, outcome := some .sold }
    let s ← s.onCapacity (Capacity.finalizeRedeem · c.self o.capKey canonical)
    let s := markSettled s env.now id r.ref canonical
    if gross = 0 then do
      -- a canonical delivery paid the holder on the reserve chain
      let s ← removeOpen (s.set id { s.orders id with status := .filled }) id
      let s ← flushHeld c s env 0 id
      pure (s, true)
    else do
      let s := s.set id { s.orders id with amountOut := net }
      if isBack o.held net then do
        let s ← payHeldProceeds c s env id
        pure (s, true)
      else if s.terms.floatEnabled = true ∧ net ≤ s.money.available ∧
          net ≤ payAllowance s env.now then do
        let s ← s.unescrow o.held
        let s := s.set id { s.orders id with held := 0, advanced := true, status := .filled }
        let s ← removeOpen (s.accrue fee) id
        pure (pay c s env 0 id o.user net true, true)
      else pure (s.set id { s.orders id with status := .proceeds }, true)

def settleFailed (s : State) (env : Env) (id : Nat) (r : Result) (canonical : Bool) :
    Tx (State × Bool) := do
  let o := s.orders id
  let floatCancelled := o.kind = .buy ∧ o.status = .cancelled ∧ o.advanced = true ∧ o.outcome = none
  let sellFailedLate := o.kind ≠ .buy ∧ o.status = .escalated ∧ o.outcome = none
  if ¬ unanswered o ∧ o.status ≠ .pending ∧ ¬ sellFailedLate ∧ ¬ floatCancelled then pure (s, false)
  else do
    let s := s.set id { o with outcome := some .failed, rawOut := 0 }
    let s := markSettled s env.now id r.ref canonical
    if o.kind = .buy then do
      let s ← s.onCapacity (Capacity.release · c.self o.capKey)
      if floatCancelled then pure (s, true)
      else do
        let s := s.set id { s.orders id with settledAt := env.now, status := .returning }
        let s ← closeReturnedBuy c s env id (decide (o.status = .escalated))
        pure (s, true)
    else do
      let s ← removeOpen
        (s.set id { s.orders id with status := .cancelled, settledAt := env.now }) id
      -- nothing was sold, so the burn is undone
      let s ← s.onArc o.underlying (Token.mint · o.user o.amountIn)
      let s ← s.onCapacity (Capacity.revertRedeem · c.self o.capKey)
      let s ← flushHeld c s env 0 id
      pure (s, true)

/-- `settle`; false when the result changed nothing. -/
def settle (s : State) (env : Env) (id : Nat) (r : Result) (canonical : Bool) :
    Tx (State × Bool) :=
  match r.outcome with
  | .bought => settleBought c s env id r canonical
  | .sold => settleSold c s env id r canonical
  | .failed => settleFailed c s env id r canonical

def migrationUnderlying : Ref → Address
  | .order _ => 0
  | .migration underlying _ => underlying

def migrationMint (s : State) (r : Result) : Tx State := do
  require (¬ (r.outcome ≠ .bought ∨ r.amountOut = 0)) .badMigration
  require (migrationUnderlying r.ref = r.underlying) .badMigration
  require ((s.terms.listings r.underlying).listed = true) .notListedHere
  let s ← s.onArc r.underlying (Token.mint · s.roles.treasury r.amountOut)
  s.onCapacity (Capacity.finalizeBuy · c.self (.ref r.ref) r.underlying r.amountOut)

/-- `matches`: a settled order agrees with the canonical result for it. -/
def agrees (o : Order) (r : Result) : Prop := o.rawOut = r.amountOut ∧ o.outcome = some r.outcome

instance (o : Order) (r : Result) : Decidable (agrees o r) := inferInstanceAs (Decidable (_ ∧ _))

def claimPay (s : State) (env : Env) (id : Nat) (recipient : Address) : Tx State := do
  let o := s.orders id
  require (o.owed ≠ 0) .notClaimable
  let claimableTotal ← sub s.money.claimableTotal o.owed
  let s := { s.set id { o with owed := 0 } with
    money := { s.money with claimableTotal := claimableTotal } }
  transfer c s env 0 recipient o.owed

def Settlement.voidClaimable (s : State) (id amount : Nat) : Tx State := do
  let o := s.orders id
  require (¬ (o.disputed = false ∨ o.owed < amount)) .notClaimable
  let claimableTotal ← sub s.money.claimableTotal amount
  pure { s.set id { o with owed := o.owed - amount } with
    money := { s.money with claimableTotal := claimableTotal } }

end Solonpad.Hub
