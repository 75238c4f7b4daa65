import Solonpad.StockHub
import Mathlib.Logic.Relation

/-!
What the hub's books can do. A call is a chain of moves, and most moves rewrite one order: the
escrow changes by what that order holds in it, the claims by what it is owed, and the money the
hub has beyond its liabilities shrinks by no more than is drawn from the float. A move is read
under two promises about its call: that a result concerns an order the vault was told of, and
that a sale the float pays is covered in full.
-/

namespace Solonpad.Hub

open Checked Chain Messages

/-! What an order holds. -/

def Order.holdsFee (o : Order) : Prop :=
  o.kind = .buy ∧ (o.status = .pending ∨ o.status = .funded ∨ o.status = .dispatched ∨
    o.status = .returning ∨ o.status = .escalated ∧ o.outcome = none)

instance (o : Order) : Decidable o.holdsFee := inferInstanceAs (Decidable (_ ∧ _))

def Order.inEscrow (o : Order) : Nat :=
  (if o.kind = .buy ∧ o.status = .pending then o.amountIn else 0) +
    (if o.holdsFee then o.fee else 0) + o.extra + o.held + o.refundReady

/-- What placement fixes. -/
def Order.deal (o : Order) : Address × Address × Kind × Nat × Nat × Nat × CapKey :=
  (o.user, o.underlying, o.kind, o.amountIn, o.lane, o.feeBps, o.capKey)

def Order.phase (o : Order) : Status × Option Outcome × Bool × Nat :=
  (o.status, o.outcome, o.advanced, o.rawOut)

def State.isSent (s : State) (id : Nat) : Prop :=
  (∃ m ∈ s.packets, m.ref = .order id) ∨ ∃ d ∈ s.deliveries, d.ref = .order id

/-- The steps of an order's life that touch no other contract. -/
inductive Turn (o : Order) : Order → Prop where
  | keeps (next : Order) (phase : next.phase = o.phase)
      (refund : next.refundReady = o.refundReady ∨ next.refundReady = 0) : Turn o next
  | refunded (next : Order) (buy : o.kind = .buy) (lane : o.lane = 0) (pending : o.status = .pending)
      (refund : next.refundReady = o.refundReady)
      (phase : next.phase = (.cancelled, o.outcome, o.advanced, o.rawOut)) : Turn o next
  | floatRefunded (next : Order) (buy : o.kind = .buy) (dispatched : o.status = .dispatched)
      (refund : next.refundReady = o.refundReady)
      (phase : next.phase = (.cancelled, o.outcome, true, o.rawOut)) : Turn o next
  | closed (next : Order) (buy : o.kind = .buy) (returning : o.status = .returning)
      (phase : next.phase = (.cancelled, o.outcome, o.advanced, o.rawOut)) : Turn o next
  | paid (next : Order) (sell : o.kind = .sell) (proceeds : o.status = .proceeds)
      (refund : next.refundReady = o.refundReady)
      (phase : next.phase = (.filled, o.outcome, o.advanced, o.rawOut)) : Turn o next

/-- One order's rewriting seen from the ledgers; `drawn` comes out of the float. -/
structure Entry (m : Money) (o : Order) (after : Money) (next : Order) (drawn : Nat) : Prop where
  escrow : after.escrowed + o.inEscrow = m.escrowed + next.inEscrow
  claims : after.claimableTotal + o.owed = m.claimableTotal + next.owed
  covered : m.balance + after.liabilities ≤ after.balance + m.liabilities + drawn

/-- An order as it is placed. -/
structure Placed.As (o : Order) (kind : Kind) (status : Status) : Prop where
  kind : o.kind = kind
  phase : o.phase = (status, none, false, 0)
  refund : o.refundReady = 0
  fees : o.feeBps ≤ maxFeeBps

/-- The result a call applies, and whether canonically. -/
def Action.result : Action → Option (Result × Bool)
  | .lzReceive _ r => some (r, false)
  | .reconcile r => some (r, true)
  | _ => none

/-- What is promised about a call: its result is for an order the vault was told of, a sale it
pays from the float is covered in full, and the float is off. -/
structure Promises where
  trusted : Prop
  ample : Prop
  unfloated : Prop

/-- The message of an order that leaves for the vault, or of its void. -/
inductive Sends (id : Nat) (o : Order) : Messages.Order → Prop where
  | order (open' : o.status = .funded ∨ o.kind = .sell ∧ o.status = .pending) :
      Sends id o (orderMessage id o)
  | void (buy : o.kind = .buy) (unanswered : o.outcome = none)
      (open' : o.status = .funded ∨ o.status = .dispatched ∨
        o.status = .cancelled ∧ o.advanced = true) :
      Sends id o { orderMessage id o with amountIn := 0 }

/-- Why an order is handed to the canonical lane, by the shares it asks for there. -/
inductive Delivers (o : Order) : Nat → Prop where
  | sell (sell : o.kind = .sell) (open' : o.status = .dispatched ∨ o.status = .pending) :
      Delivers o (toUint128 o.amountIn)
  | void (buy : o.kind = .buy) (lane : o.lane = 0) (unanswered : o.outcome = none)
      (open' : o.status = .funded ∨ o.status = .dispatched) : Delivers o 0
  | money (lane : o.lane = 0) (open' : o.status = .returning ∨ o.status = .proceeds) : Delivers o 0

variable (c : Config)

inductive Move (p : Promises) (a : Action) (s : State) : State → Prop where
  | controls (roles : Roles) (terms : Terms) (watch : Watch) (opened : OpenOrders)
      (buyFee : terms.buyFeeBps ≤ s.terms.buyFeeBps)
      (sellFee : terms.sellFeeBps ≤ s.terms.sellFeeBps) :
      Move p a s { s with roles := roles, terms := terms, watch := watch, opened := opened }
  | funds (money : Money) (drawn : Nat) (escrow : money.escrowed = s.money.escrowed)
      (claims : money.claimableTotal = s.money.claimableTotal) (free : drawn ≤ s.money.available)
      (covered : s.money.balance + money.liabilities ≤
        money.balance + s.money.liabilities + drawn) :
      Move p a s { s with money := money }
  | turned (id : Nat) (next : Order) (money : Money) (drawn : Nat) (placed : id < s.orderCount)
      (deal : next.deal = (s.orders id).deal) (turn : Turn (s.orders id) next)
      (float : p.unfloated → next.advanced = (s.orders id).advanced)
      (entry : Entry s.money (s.orders id) money next drawn) (free : drawn ≤ s.money.available) :
      Move p a s { s with orders := Function.update s.orders id next, money := money }
  | floatPaid (id : Nat) (next : Order) (money : Money) (drawn : Nat) (placed : id < s.orderCount)
      (deal : next.deal = (s.orders id).deal) (float : ¬ p.unfloated)
      (sell : (s.orders id).kind = .sell) (proceeds : (s.orders id).status = .proceeds)
      (refund : next.refundReady = (s.orders id).refundReady)
      (phase : next.phase = (.filled, (s.orders id).outcome, true, (s.orders id).rawOut))
      (entry : Entry s.money (s.orders id) money next drawn)
      (free : p.ample → drawn ≤ s.money.available) :
      Move p a s { s with orders := Function.update s.orders id next, money := money }
  | placesBuy (o : Order) (money : Money) (buy : Placed.As o .buy .pending) (lane : o.lane = 0)
      (key : o.capKey = .order s.orderCount) (entry : Entry s.money Order.blank money o 0) :
      Move p a s { s with
        orders := Function.update s.orders s.orderCount o, orderCount := s.orderCount + 1
        money := money }
  | placesReward (o : Order) (money : Money) (buy : Placed.As o .buy .pending) (lane : o.lane = 1)
      (unplaced : s.rewardOrder o.capKey = 0)
      (reserved : (s.capacity.tickets o.capKey).state = .reserved)
      (unsent : (s.capacity.tickets o.capKey).sent = false)
      (entry : Entry s.money Order.blank money o 0) :
      Move p a s { s with
        orders := Function.update s.orders s.orderCount o, orderCount := s.orderCount + 1
        money := money
        rewardOrder := Function.update s.rewardOrder o.capKey (s.orderCount + 1) }
  | placesSell (o : Order) (token : Token) (capacity : Capacity.State CapKey)
      (sell : Placed.As o .sell .pending) (lane : o.lane = 0) (key : o.capKey = .order s.orderCount)
      (entry : Entry s.money Order.blank s.money o 0)
      (burned : token.totalSupply + o.amountIn = (s.arc o.underlying).totalSupply)
      (booked : Capacity.beginRedeem s.capacity c.self o.capKey o.underlying o.amountIn =
        .ok capacity) :
      Move p a s { s with
        orders := Function.update s.orders s.orderCount o, orderCount := s.orderCount + 1
        arc := Function.update s.arc o.underlying token, capacity := capacity }
  | redeems (o : Order) (token : Token) (capacity : Capacity.State CapKey) (money : Money)
      (recipient : Address) (mode : DeliverMode)
      (sell : Placed.As o .sell .escalated) (lane : o.lane = 0)
      (key : o.capKey = .order s.orderCount) (entry : Entry s.money Order.blank money o 0)
      (burned : token.totalSupply + o.amountIn = (s.arc o.underlying).totalSupply)
      (booked : Capacity.beginRedeem s.capacity c.self o.capKey o.underlying o.amountIn =
        .ok capacity) :
      Move p a s { s with
        orders := Function.update s.orders s.orderCount o, orderCount := s.orderCount + 1
        arc := Function.update s.arc o.underlying token, capacity := capacity, money := money
        deliveries := s.deliveries ++
          [⟨.order s.orderCount, o.underlying, toUint128 o.amountIn, recipient, mode⟩] }
  | launches (id : Nat) (next : Order) (money : Money) (reserved capacity : Capacity.State CapKey)
      (placed : id < s.orderCount) (deal : next.deal = (s.orders id).deal)
      (buy : (s.orders id).kind = .buy) (pending : (s.orders id).status = .pending)
      (refund : next.refundReady = (s.orders id).refundReady)
      (phase : next.phase =
        (.funded, (s.orders id).outcome, (s.orders id).advanced, (s.orders id).rawOut))
      (entry : Entry s.money (s.orders id) money next 0)
      (publicLane : (s.orders id).lane = 0 → Capacity.reservePublicFor s.capacity c.self
        (s.orders id).capKey (s.orders id).underlying (s.orders id).amountIn = .ok reserved)
      (rewardLane : (s.orders id).lane ≠ 0 → reserved = s.capacity)
      (sent : Capacity.markSent reserved c.self (s.orders id).capKey = .ok capacity) :
      Move p a s { s with
        orders := Function.update s.orders id next, money := money, capacity := capacity }
  | sends (id : Nat) (next : Order) (money : Money) (m : Messages.Order)
      (placed : id < s.orderCount) (deal : next.deal = (s.orders id).deal)
      (message : Sends id (s.orders id) m)
      (refund : next.refundReady = (s.orders id).refundReady)
      (phase : next.phase =
        (if (s.orders id).status = .cancelled then .cancelled else .dispatched,
          (s.orders id).outcome, (s.orders id).advanced, (s.orders id).rawOut))
      (entry : Entry s.money (s.orders id) money next 0) :
      Move p a s { s with
        orders := Function.update s.orders id next, money := money, packets := s.packets ++ [m] }
  | delivers (id : Nat) (next : Order) (money : Money) (shares : Nat) (recipient : Address)
      (placed : id < s.orderCount) (deal : next.deal = (s.orders id).deal)
      (why : Delivers (s.orders id) shares)
      (refund : next.refundReady = (s.orders id).refundReady)
      (phase : next.phase =
        (.escalated, (s.orders id).outcome, (s.orders id).advanced, (s.orders id).rawOut))
      (entry : Entry s.money (s.orders id) money next 0) :
      Move p a s { s with
        orders := Function.update s.orders id next, money := money
        deliveries := s.deliveries ++
          [⟨.order id, (s.orders id).underlying, shares, recipient, .settlement⟩] }
  | bought (id : Nat) (r : Result) (canonical : Bool) (next : Order) (money : Money)
      (recipient : Address) (token : Token) (capacity : Capacity.State CapKey)
      (placed : id < s.orderCount) (applies : a.result = some (r, canonical))
      (ref : r.ref = .order id) (outcome : r.outcome = .bought)
      (deal : next.deal = (s.orders id).deal) (buy : (s.orders id).kind = .buy)
      (refund : next.refundReady = (s.orders id).refundReady)
      (open' : unanswered (s.orders id) ∧
          next.phase = (.filled, some .bought, (s.orders id).advanced, r.amountOut) ∨
        (s.orders id).status = .cancelled ∧ (s.orders id).advanced = true ∧
          (s.orders id).outcome = none ∧
          next.phase = (.cancelled, some .bought, true, r.amountOut))
      (entry : Entry s.money (s.orders id) money next 0)
      (minted : (s.arc (s.orders id).underlying).mint recipient r.amountOut = .ok token)
      (booked : Capacity.finalizeBuy s.capacity c.self (s.orders id).capKey
        (s.orders id).underlying r.amountOut = .ok capacity) :
      Move p a s { s with
        orders := Function.update s.orders id next, money := money, capacity := capacity
        arc := Function.update s.arc (s.orders id).underlying token }
  | sold (id : Nat) (r : Result) (canonical : Bool) (next : Order)
      (capacity : Capacity.State CapKey)
      (placed : id < s.orderCount) (applies : a.result = some (r, canonical))
      (ref : r.ref = .order id) (outcome : r.outcome = .sold)
      (deal : next.deal = (s.orders id).deal) (sell : (s.orders id).kind = .sell)
      (unanswered : (s.orders id).outcome = none)
      (open' : (s.orders id).status = .dispatched ∨ (s.orders id).status = .pending ∨
        (s.orders id).status = .escalated)
      (refund : next.refundReady = (s.orders id).refundReady)
      (phase : next.phase = (if r.amountOut = 0 then .filled else .proceeds, some .sold,
        (s.orders id).advanced, r.amountOut))
      (entry : Entry s.money (s.orders id) s.money next 0)
      (booked : Capacity.finalizeRedeem s.capacity c.self (s.orders id).capKey canonical =
        .ok capacity) :
      Move p a s { s with
        orders := Function.update s.orders id next, capacity := capacity }
  | buyFailed (id : Nat) (r : Result) (canonical : Bool) (next : Order)
      (capacity : Capacity.State CapKey)
      (placed : id < s.orderCount) (applies : a.result = some (r, canonical))
      (ref : r.ref = .order id) (outcome : r.outcome = .failed)
      (deal : next.deal = (s.orders id).deal) (buy : (s.orders id).kind = .buy)
      (open' : (unanswered (s.orders id) ∨ (s.orders id).status = .pending) ∧
          next.phase = (.returning, some .failed, (s.orders id).advanced, 0) ∨
        (s.orders id).status = .cancelled ∧ (s.orders id).advanced = true ∧
          (s.orders id).outcome = none ∧ next.phase = (.cancelled, some .failed, true, 0))
      (refund : next.refundReady = (s.orders id).refundReady)
      (entry : p.trusted → Entry s.money (s.orders id) s.money next 0)
      (booked : Capacity.release s.capacity c.self (s.orders id).capKey = .ok capacity) :
      Move p a s { s with
        orders := Function.update s.orders id next, capacity := capacity }
  | sellFailed (id : Nat) (r : Result) (canonical : Bool) (next : Order) (token : Token)
      (capacity : Capacity.State CapKey)
      (placed : id < s.orderCount) (applies : a.result = some (r, canonical))
      (ref : r.ref = .order id) (outcome : r.outcome = .failed)
      (deal : next.deal = (s.orders id).deal) (sell : (s.orders id).kind = .sell)
      (open' : (s.orders id).outcome = none ∧
        ((s.orders id).status = .dispatched ∨ (s.orders id).status = .escalated) ∨
        (s.orders id).status = .pending)
      (refund : next.refundReady = (s.orders id).refundReady)
      (phase : next.phase = (.cancelled, some .failed, (s.orders id).advanced, 0))
      (entry : Entry s.money (s.orders id) s.money next 0)
      (minted : (s.arc (s.orders id).underlying).mint (s.orders id).user (s.orders id).amountIn =
        .ok token)
      (booked : Capacity.revertRedeem s.capacity c.self (s.orders id).capKey = .ok capacity) :
      Move p a s { s with
        orders := Function.update s.orders id next, capacity := capacity
        arc := Function.update s.arc (s.orders id).underlying token }
  | withdrawn (id : Nat) (next : Order) (money : Money) (capacity : Capacity.State CapKey)
      (placed : id < s.orderCount) (deal : next.deal = (s.orders id).deal)
      (buy : (s.orders id).kind = .buy) (lane : (s.orders id).lane = 1)
      (pending : (s.orders id).status = .pending)
      (phase : next.phase =
        (.cancelled, (s.orders id).outcome, (s.orders id).advanced, (s.orders id).rawOut))
      (entry : Entry s.money (s.orders id) money next 0)
      (booked : Capacity.releaseUnsent s.capacity c.self (s.orders id).capKey = .ok capacity) :
      Move p a s { s with
        orders := Function.update s.orders id next, money := money, capacity := capacity }
  | migrated (r : Result) (underlying : Address) (nonce : Nat) (recipient : Address)
      (token : Token) (capacity : Capacity.State CapKey)
      (applies : a.result = some (r, true)) (ref : r.ref = .migration underlying nonce)
      (same : r.underlying = underlying) (outcome : r.outcome = .bought)
      (unproven : s.reconciled r.ref = false)
      (minted : (s.arc underlying).mint recipient r.amountOut = .ok token)
      (booked : Capacity.finalizeBuy s.capacity c.self (.ref r.ref) underlying r.amountOut =
        .ok capacity) :
      Move p a s { s with
        reconciled := Function.update s.reconciled r.ref true
        arc := Function.update s.arc underlying token, capacity := capacity }
  | reviews (key : CapKey) (capacity : Capacity.State CapKey)
      (booked : Capacity.markReviewed s.capacity c.self key = .ok capacity) :
      Move p a s { s with capacity := capacity }
  | marks (id : Nat) :
      Move p a s { s with reconciled := Function.update s.reconciled (.order id) true }
  | outside (call : Capacity.Call CapKey) (capacity : Capacity.State CapKey)
      (other : call.sender ≠ c.self) (booked : Capacity.step s.capacity call = .ok capacity)
      (own : a = .capacity call.action) : Move p a s { s with capacity := capacity }
  | transfers (underlying : Address) (token : Token)
      (supply : token.totalSupply = (s.arc underlying).totalSupply) :
      Move p a s { s with arc := Function.update s.arc underlying token }

/-- What one call does to the books. -/
abbrev Moves (p : Promises) (a : Action) : State → State → Prop :=
  Relation.ReflTransGen (Move c p a)

end Solonpad.Hub
