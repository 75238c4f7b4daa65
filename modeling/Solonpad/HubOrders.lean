import Solonpad.Capacity
import Solonpad.Messages

/-!
The order book of the Arc hub: what `HubSettlement.sol` stores and the small operations its
settlement rules, its exits and the hub share. Native money is counted without a width; a
subtraction from a ledger is checked. The hub holds its capacity controller and the `.sol`
tokens in its own state, since it alone mints, burns and settles on them. What only views and
events read (a user's order list, tickers, the launch status of a stock) is left out.
-/

namespace Solonpad.Hub

open Checked Chain Messages

inductive Kind where
  | buy
  | sell
  deriving DecidableEq, Repr

inductive Status where
  | pending
  | dispatched
  | filled
  | cancelled
  | escalated
  | funded
  | returning
  | proceeds
  deriving DecidableEq, Repr

/-- What a reward round's order id is the hash of. -/
structure RoundOrderId where
  entriesHash : Nat
  minRaw : Nat
  deadline : Nat
  sourceNonce : Nat
  deriving DecidableEq, Repr

/-- Capacity keys, by what each is the hash of: the hub and an order's id, a reward round's
order, or a migration's ref. -/
inductive CapKey where
  | order (id : Nat)
  | reward (orderId : RoundOrderId)
  | ref (ref : Ref)
  deriving DecidableEq, Repr

structure Order where
  user : Address
  underlying : Address
  kind : Kind
  status : Status
  createdAt : Nat
  settledAt : Nat
  /-- A buy's principal in native money, a sell's burned shares. -/
  amountIn : Nat
  minOut : Nat
  amountOut : Nat
  fee : Nat
  rawOut : Nat
  lzSettled : Bool
  orphaned : Bool
  dispatchedAt : Nat
  /-- 0 public, 1 reward. -/
  lane : Nat
  feeBps : Nat
  cancelRequested : Bool
  disputed : Bool
  /-- Paid or refunded from the float; what comes back replenishes it. -/
  advanced : Bool
  outcome : Option Outcome
  route : Address
  extra : Nat
  held : Nat
  owed : Nat
  custodyRaw : Nat
  refundReady : Nat
  capKey : CapKey
  voided : Bool

def Order.blank : Order where
  user := 0
  underlying := 0
  kind := .buy
  status := .pending
  createdAt := 0
  settledAt := 0
  amountIn := 0
  minOut := 0
  amountOut := 0
  fee := 0
  rawOut := 0
  lzSettled := false
  orphaned := false
  dispatchedAt := 0
  lane := 0
  feeBps := 0
  cancelRequested := false
  disputed := false
  advanced := false
  outcome := none
  route := 0
  extra := 0
  held := 0
  owed := 0
  custodyRaw := 0
  refundReady := 0
  capKey := .order 0
  voided := false

structure Listing where
  /-- The `.sol` token is deployed. -/
  listed : Bool
  vaultEid : Nat
  enabled : Bool
  mintFloor : Nat
  route : Address
  routePath : Nat

structure Pending where
  value : Address
  eta : Nat

structure Roles where
  keeper : Address
  guardian : Address
  treasury : Address
  opsVault : Address
  gate : Address
  rewardAdapter : Address → Bool

structure Terms where
  paused : Bool
  buyFeeBps : Nat
  sellFeeBps : Nat
  mintLimitBps : Nat
  payFloor : Nat
  payLimitBps : Nat
  floatEnabled : Bool
  listings : Address → Listing
  pendingRoute : Address → Pending

/-- The daily windows and the queue of results that wait for their canonical proof. -/
structure Watch where
  mintedInWindow : Address → Nat
  windowStart : Address → Nat
  paidInWindow : Nat
  payWindowStart : Nat
  unreconciled : List Ref
  lzSettledAt : Ref → Nat
  mintsHalted : Bool
  resumedAt : Nat

structure OpenOrders where
  ids : List Nat
  /-- A listed id's position + 1, else 0. -/
  index : Nat → Nat

structure Money where
  balance : Nat
  escrowed : Nat
  accruedFees : Nat
  claimableTotal : Nat

structure State where
  roles : Roles
  terms : Terms
  watch : Watch
  opened : OpenOrders
  money : Money
  orders : Nat → Order
  orderCount : Nat
  arc : Address → Token
  capacity : Capacity.State CapKey
  reconciled : Ref → Bool
  /-- Order id + 1. -/
  rewardOrder : CapKey → Nat
  /-- Orders handed to LayerZero. -/
  packets : List Messages.Order
  /-- Deliveries handed to the canonical gate. -/
  deliveries : List Deliver

def bps : Nat := 10000
def scale : Nat := 10 ^ 12
def maxFeeBps : Nat := 100
def cancelAfter : Nat := 30 * 60
def escalateAfter : Nat := 6 * 3600
def configDelay : Nat := 48 * 3600
def reconcileWindow : Nat := 8 * 86400
def mintWindow : Nat := 86400
def hookFee : Nat := 10 ^ 18

/-- What the deployment fixes. -/
structure Config where
  self : Address
  owner : Address
  scheduler : Address
  floatRecipientA : Address
  floatRecipientB : Address
  treasury : Address
  opsVault : Address
  guardian : Address
  rewardManager : Address
  feeBps : Nat
  real : self ≠ 0
  capped : feeBps ≤ maxFeeBps

/-- One call: who makes it, when and with how much money, which of the pushes it makes are
accepted, whether the other contracts it calls return, whether an escalator's user has no
code, whether a presented proof verifies, and the endpoint's fee. -/
structure Env where
  sender : Address
  now : Nat
  value : Nat
  accepts : Nat → Bool
  answers : Bool
  plainUser : Bool
  proven : Bool
  lzFee : Nat

/-! Money. -/

def Money.liabilities (m : Money) : Nat := m.escrowed + m.accruedFees + m.claimableTotal

def Money.available (m : Money) : Nat := m.balance - m.liabilities

def State.deposit (s : State) (amount : Nat) : State :=
  { s with money := { s.money with balance := s.money.balance + amount } }

def State.escrow (s : State) (amount : Nat) : State :=
  { s with money := { s.money with escrowed := s.money.escrowed + amount } }

def State.unescrow (s : State) (amount : Nat) : Tx State := do
  let escrowed ← sub s.money.escrowed amount
  pure { s with money := { s.money with escrowed := escrowed } }

def State.accrue (s : State) (fee : Nat) : State :=
  { s with money := { s.money with accruedFees := s.money.accruedFees + fee } }

def State.set (s : State) (id : Nat) (o : Order) : State :=
  { s with orders := Function.update s.orders id o }

variable (c : Config)

/-- Native money out of the hub; to the hub itself it moves nothing. -/
def State.sent (s : State) (recipient : Address) (amount : Nat) : State :=
  if recipient = c.self then s
  else { s with money := { s.money with balance := s.money.balance - amount } }

/-- `_transfer` and `_send`: the call fails when the `k`-th push of it is refused. -/
def transfer (s : State) (env : Env) (k : Nat) (recipient : Address) (amount : Nat) : Tx State := do
  require (env.accepts k = true ∧ amount ≤ s.money.balance) .transferFailed
  pure (s.sent c recipient amount)

/-- What cannot be pushed waits in the order's `owed`. -/
def push (s : State) (env : Env) (k id : Nat) (recipient : Address) (amount : Nat) : State :=
  if env.accepts k = true ∧ amount ≤ s.money.balance then s.sent c recipient amount
  else { s.set id { s.orders id with owed := (s.orders id).owed + amount } with
    money := { s.money with claimableTotal := s.money.claimableTotal + amount } }

/-- `_countPaid`. -/
def State.countPaid (s : State) (now amount : Nat) : State :=
  let fresh := s.watch.payWindowStart + mintWindow ≤ now
  { s with watch := { s.watch with
    payWindowStart := if fresh then now else s.watch.payWindowStart
    paidInWindow := (if fresh then 0 else s.watch.paidInWindow) + amount } }

/-- `HubSettlement._pay`. -/
def pay (s : State) (env : Env) (k id : Nat) (recipient : Address) (amount : Nat)
    (fromFloat : Bool) : State :=
  if amount = 0 then s
  else
    let recipient := if recipient = 0 then s.roles.treasury else recipient
    let s := push c s env k id recipient amount
    if fromFloat then s.countPaid env.now amount else s

/-! Other contracts. -/

def State.onArc (s : State) (underlying : Address) (call : Token → Tx Token) : Tx State := do
  let token ← call (s.arc underlying)
  pure { s with arc := Function.update s.arc underlying token }

def State.onCapacity (s : State)
    (call : Capacity.State CapKey → Tx (Capacity.State CapKey)) : Tx State := do
  let capacity ← call s.capacity
  pure { s with capacity := capacity }

/-! The open list. -/

def OpenOrders.push (l : OpenOrders) (id : Nat) : OpenOrders where
  ids := l.ids ++ [id]
  index := Function.update l.index id (l.ids.length + 1)

def OpenOrders.remove (l : OpenOrders) (id : Nat) : Tx OpenOrders :=
  let idx := l.index id
  if idx = 0 then pure l
  else
    match l.ids.getLast? with
    | none => throw .bounds
    | some last =>
      if l.ids.length < idx then throw .bounds
      else pure {
        ids := (l.ids.set (idx - 1) last).dropLast
        index := Function.update (Function.update l.index last idx) id 0 }

def removeOpen (s : State) (id : Nat) : Tx State := do
  let opened ← s.opened.remove id
  pure { s with opened := opened }

/-! Placing. -/

def place (s : State) (env : Env) (user underlying : Address) (kind : Kind) (status : Status)
    (amountIn minOut fee : Nat) : State :=
  let id := s.orderCount
  { s.set id { Order.blank with
      user := user
      underlying := underlying
      kind := kind
      status := status
      createdAt := env.now
      amountIn := amountIn
      minOut := minOut
      fee := fee
      feeBps := if kind = .buy then s.terms.buyFeeBps else s.terms.sellFeeBps
      route := (s.terms.listings underlying).route
      capKey := .order id } with
    orderCount := id + 1
    opened := s.opened.push id }

structure Placed where
  state : State
  principal : Nat
  fee : Nat

/-- `placeBuy`: the principal is a whole amount on the reserve chain, the dust is part of the fee. -/
def placeBuy (s : State) (env : Env) (user underlying : Address) (usdcIn minShares extra lane
    feeFromExtra : Nat) : Tx Placed := do
  let whole ← (if lane = 0 then do
      let fee := usdcIn * s.terms.buyFeeBps / bps
      let principal ← sub usdcIn fee
      pure (principal, fee)
    else pure (usdcIn, feeFromExtra) : Tx (Nat × Nat))
  let dust := whole.1 % scale
  let principal := whole.1 - dust
  let fee := whole.2 + dust
  let id := s.orderCount
  let s := place s env user underlying .buy .pending principal minShares fee
  let s := s.set id { s.orders id with lane := lane, extra := extra }
  pure ⟨s.escrow (principal + fee + extra), principal, fee⟩

/-! Limits and the reconciliation queue. -/

def Watch.halt (w : Watch) : Watch := { w with mintsHalted := true }

def Watch.proven (w : Watch) (reconciled : Ref → Bool) : Watch :=
  { w with unreconciled := w.unreconciled.dropWhile reconciled }

def checkStale (s : State) (now : Nat) : State :=
  let w := s.watch.proven s.reconciled
  match w.unreconciled with
  | [] => { s with watch := w }
  | front :: _ =>
    let since := max (w.lzSettledAt front) w.resumedAt
    if since + reconcileWindow < now then { s with watch := w.halt } else { s with watch := w }

def payAllowance (s : State) (now : Nat) : Nat :=
  let cap := max (s.money.available * s.terms.payLimitBps / bps) s.terms.payFloor
  let used := if s.watch.payWindowStart + mintWindow ≤ now then 0 else s.watch.paidInWindow
  cap - used

def mintAllowance (s : State) (underlying : Address) (now : Nat) : Nat :=
  let cap := max ((s.arc underlying).totalSupply * s.terms.mintLimitBps / bps)
    (s.terms.listings underlying).mintFloor
  let used := if s.watch.windowStart underlying + mintWindow ≤ now then 0
    else s.watch.mintedInWindow underlying
  cap - used

def State.countMinted (s : State) (underlying : Address) (now shares : Nat) : State :=
  let fresh := s.watch.windowStart underlying + mintWindow ≤ now
  let start := if fresh then now else s.watch.windowStart underlying
  let minted := if fresh then 0 else s.watch.mintedInWindow underlying
  { s with watch := { s.watch with
    windowStart := Function.update s.watch.windowStart underlying start
    mintedInWindow := Function.update s.watch.mintedInWindow underlying (minted + shares) } }

/-- `_mint`: only a LayerZero result is limited. -/
def mint (s : State) (env : Env) (underlying recipient : Address) (shares : Nat)
    (canonical : Bool) : Tx State :=
  if canonical then s.onArc underlying (Token.mint · recipient shares)
  else do
    let s := checkStale s env.now
    require (s.watch.mintsHalted = false) .mintsAreHalted
    require (shares ≤ mintAllowance s underlying env.now) .mintLimitExceeded
    (s.countMinted underlying env.now shares).onArc underlying (Token.mint · recipient shares)

/-- `_markSettled`. -/
def markSettled (s : State) (now id : Nat) (ref : Ref) (canonical : Bool) : State :=
  if canonical then { s with reconciled := Function.update s.reconciled ref true }
  else { s.set id { s.orders id with lzSettled := true } with
    watch := { s.watch with
      lzSettledAt := Function.update s.watch.lzSettledAt ref now
      unreconciled := s.watch.unreconciled ++ [ref] } }

end Solonpad.Hub
