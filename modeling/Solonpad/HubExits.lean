import Solonpad.HubSettlement

/-!
The hub's exit doors of `HubExits.sol`: the canonical lane to the reserve chain, the checks of a
void and the cancelling of a queued reward order.
-/

namespace Solonpad.Hub

open Checked Chain Messages

variable (c : Config)

/-- `_checkEscalator`: the seller picks the receiver; anyone else only the seller's own plain
address. -/
def checkEscalator (env : Env) (o : Order) (recipient : Address) : Tx Unit :=
  if env.sender = o.user then require (recipient ≠ 0) .zeroAddress
  else require (¬ (recipient ≠ o.user ∨ env.plainUser = false)) .notYours

def Exits.pay (s : State) (env : Env) (id : Nat) (recipient : Address) (amount : Nat) : State :=
  if amount = 0 then s else push c s env 0 id recipient amount

/-- `_sendDeliver`: `paid` goes to the gate with the delivery. -/
def sendDeliver (s : State) (env : Env) (id : Nat) (underlying : Address) (shares : Nat)
    (recipient : Address) (mode : DeliverMode) (paid : Nat) : Tx State := do
  require (s.roles.gate ≠ 0) .zeroAddress
  require (¬ paid < hookFee) .insufficientValue
  require (env.answers = true ∧ paid ≤ s.money.balance) .transferFailed
  let s := s.sent c s.roles.gate paid
  pure { s with deliveries := s.deliveries ++ [⟨.order id, underlying, shares, recipient, mode⟩] }

def Exits.escalate (s : State) (env : Env) (id : Nat) (recipient : Address) : Tx State := do
  let o := s.orders id
  require (o.kind = .sell) .wrongKind
  require (o.status = .dispatched ∨ o.status = .pending) .wrongStatus
  require (¬ env.now < o.createdAt + escalateAfter) .tooEarly
  checkEscalator env o recipient
  let s ← removeOpen (s.set id { o with status := .escalated }) id
  sendDeliver c s env id o.underlying (toUint128 o.amountIn) recipient .settlement env.value

def Exits.canonicalRedeem (s : State) (env : Env) (underlying : Address) (sharesIn : Nat)
    (recipient : Address) (mode : DeliverMode) : Tx State := do
  require (sharesIn ≠ 0) .zeroAmount
  require (recipient ≠ 0) .zeroAddress
  let s ← s.onArc underlying (Token.burn · env.sender sharesIn)
  let fee := sharesIn * s.terms.sellFeeBps / bps
  let s ← (if 0 < fee then s.onArc underlying (Token.mint · s.roles.treasury fee)
    else pure s : Tx State)
  let net ← sub sharesIn fee
  require (net ≠ 0) .zeroAmount
  let id := s.orderCount
  let s := place s env env.sender underlying .sell .escalated net 0 0
  let s ← s.onCapacity (Capacity.beginRedeem · c.self (s.orders id).capKey underlying net)
  let s ← removeOpen s id
  sendDeliver c s env id underlying (toUint128 net) recipient mode env.value

/-- `escalateFunds` of an order the vault answered: what Arc still holds comes back here. -/
def escalateAnswered (s : State) (env : Env) (id : Nat) (recipient : Address) : Tx State := do
  let o := s.orders id
  require (¬ (o.status ≠ .returning ∧ o.status ≠ .proceeds)) .wrongStatus
  require (¬ env.now < o.settledAt + escalateAfter) .tooEarly
  let s ← removeOpen (s.set id { o with status := .escalated }) id
  let held := o.held
  if o.kind = .buy then do
    let back := held + (o.fee + o.extra)
    let s ← s.unescrow back
    let s := s.set id { s.orders id with held := 0, fee := 0, extra := 0 }
    let s := Exits.pay c s env id o.user back
    sendDeliver c s env id o.underlying 0 recipient .settlement env.value
  else do
    let s ← s.unescrow held
    let s := s.set id { s.orders id with held := 0 }
    -- proceeds taken over there still pay the locked fee: from held money first, the rest on top
    let fromHeld := if o.fee < held then o.fee else held
    let due := o.fee - fromHeld
    require (¬ env.value < hookFee + due) .insufficientValue
    let s := Exits.pay c (s.accrue o.fee) env id o.user (held - fromHeld)
    sendDeliver c s env id o.underlying 0 recipient .settlement (env.value - due)

def Exits.escalateFunds (s : State) (env : Env) (id : Nat) (recipient : Address) : Tx State := do
  let o := s.orders id
  checkEscalator env o recipient
  require (o.lane = 0) .wrongStatus
  if o.kind = .buy ∧ o.outcome = none ∧ (o.cancelRequested = true ∨ isBack o.held o.amountIn) ∧
      (o.status = .funded ∨ o.status = .dispatched) then do
    require (¬ env.now < o.dispatchedAt + escalateAfter) .tooEarly
    -- fee, reserve and held money wait for the result
    let s := s.set id { o with status := .escalated }
    sendDeliver c s env id o.underlying 0 recipient .settlement env.value
  else escalateAnswered c s env id recipient

/-- `checkVoid`: who may void, and the part of the LayerZero fee the order's reserve pays. -/
def checkVoid (s : State) (id : Nat) (operator : Bool) (paid lzFee : Nat) : Tx State := do
  let o := s.orders id
  let opened := o.status = .funded ∨ o.status = .dispatched
  let floatRefunded := o.advanced = true ∧ o.status = .cancelled
  require (¬ (o.kind ≠ .buy ∨ o.outcome ≠ none ∨ ¬ (floatRefunded ∨ opened ∧
    (o.cancelRequested = true ∨ isBack o.held o.amountIn ∨ operator = true ∧ o.lane = 1))))
    .wrongStatus
  if lzFee ≤ paid then pure s
  else do
    require (o.voided = false) .insufficientValue
    let need := lzFee - paid
    require (¬ o.extra < need) .insufficientValue
    (s.set id { o with voided := true, extra := o.extra - need }).unescrow need

def Exits.cancelReward (s : State) (env : Env) (id : Nat) : Tx State := do
  let o := s.orders id
  require (¬ (o.lane ≠ 1 ∨ o.status ≠ .pending)) .wrongStatus
  let s ← refundBuy c s env id
  s.onCapacity (Capacity.releaseUnsent · c.self o.capKey)

end Solonpad.Hub
