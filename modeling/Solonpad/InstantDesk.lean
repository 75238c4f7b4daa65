import Mathlib.Logic.Function.Basic
import Solonpad.OracleAnchors

/-!
`InstantStockDesk.sol`: a small inventory of stocks and native USDC, swapped one for the other at the oracle price. The
desk's holdings are state; traders' holdings, the hub's answers and the oracle's price are part of a call's environment,
with what the hub pays back part of the call. Products stay within 256 bits and an hour's number within 64.
-/

namespace Solonpad.InstantDesk

open Checked Histories
open Chain (Address)

inductive DeskError where
  | notOwner | notGuardian | notRestocker | notListed | notAStock | isPaused | overTradeCap | overFlowCap
  | outOfStock | outOfUsdc | slippage | zeroAmount | spreadTooHigh | transferFailed | priceNotLive | hubReverted
  deriving DecidableEq, Repr

abbrev Tx (α : Type) := Checked.Tx DeskError α

def bps : Nat := 10000
def maxSpreadBps : Nat := 500
def hubFeeBps : Nat := 25
def restockSlippageBps : Nat := 100
def hookFee : Nat := 10 ^ 18

/-- Terms whose spreads are within what `setTerms` takes. -/
structure Terms where
  underlying : Address
  spreadBps : Nat
  sellSpreadBps : Nat
  maxTradeUsd : Nat
  flowCapUsd : Nat
  enabled : Bool
  spread_le : spreadBps ≤ maxSpreadBps
  sellSpread_le : sellSpreadBps ≤ maxSpreadBps

structure Flow where
  hour : Nat
  boughtUsd : Nat
  soldUsd : Nat

structure State where
  paused : Bool
  terms : Address → Terms
  flow : Address → Flow
  /-- The desk's shares of each stock. -/
  shares : Address → Nat
  /-- The desk's native balance. -/
  usdc : Nat

structure Config where
  self : Address
  owner : Address
  guardian : Address
  restocker : Address

/-- `execPrice` is none where the oracle reverts, and no price it returns is zero. -/
structure Env where
  sender : Address
  now : Nat
  execPrice : Address → Option Nat
  positive : ∀ stock price, execPrice stock = some price → 0 < price
  rawFor : Address → Nat → Option Nat
  usdFor : Address → Nat → Option Nat
  transferable : Address → Bool
  underlyingOfToken : Address → Address
  quoteOrder : Nat
  hubAccepts : Bool
  /-- The caller has the balance and the allowance. -/
  pulls : Bool
  /-- The recipient takes the transfer. -/
  delivers : Bool

def Terms.none : Terms := ⟨0, 0, 0, 0, 0, false, Nat.zero_le _, Nat.zero_le _⟩

def deployed : State where
  paused := false
  terms := fun _ => .none
  flow := fun _ => ⟨0, 0, 0⟩
  shares := fun _ => 0
  usdc := 0

variable (c : Config)

/-! Trades. -/

/-- `_sharesFor`. -/
def sharesFor (usdcIn price spreadBps : Nat) : Nat := usdcIn * (10 ^ 18 * (bps - spreadBps)) / (price * bps)

/-- What shares are worth at a price. -/
def grossFor (sharesIn price : Nat) : Nat := sharesIn * price / 10 ^ 18

def payoutFor (gross sellSpreadBps : Nat) : Nat := gross * (bps - sellSpreadBps) / bps

def Flow.used (f : Flow) (buySide : Bool) : Nat := if buySide = true then f.boughtUsd else f.soldUsd

def Flow.use (f : Flow) (buySide : Bool) (usd : Nat) : Flow :=
  if buySide = true then { f with boughtUsd := usd } else { f with soldUsd := usd }

def hourOf (now : Nat) : Nat := now / 3600

/-- The hour's flow, started anew in a new hour. -/
def Flow.at_ (f : Flow) (hour : Nat) : Flow := if f.hour ≠ hour then ⟨hour, 0, 0⟩ else f

/-- `_useFlow`. -/
def useFlow (s : State) (env : Env) (stock : Address) (t : Terms) (usd : Nat) (buySide : Bool) : Tx Flow := do
  let f := (s.flow stock).at_ (hourOf env.now)
  let used := f.used buySide
  require (used + usd ≤ t.flowCapUsd) .overFlowCap
  pure (f.use buySide (used + usd))

/-- `_flowLeft`. -/
def flowLeft (s : State) (env : Env) (stock : Address) (t : Terms) (buySide : Bool) : Nat :=
  let f := s.flow stock
  let used := if f.hour = hourOf env.now then f.used buySide else 0
  if t.flowCapUsd ≤ used then 0 else t.flowCapUsd - used

/-- `_listed`. -/
def listed (s : State) (stock : Address) : Tx Terms := do
  require ((s.terms stock).underlying ≠ 0) .notListed
  pure (s.terms stock)

/-- An external read that may revert. -/
def answered {α : Type} (answer : Option α) (error : DeskError) : Tx α :=
  match answer with
  | some value => .ok value
  | none => .error (.revert error)

/-- `_live`. -/
def live (s : State) (env : Env) (stock : Address) : Tx (Terms × Nat) := do
  let t ← listed s stock
  require (t.enabled = true ∧ env.transferable stock = true) .notListed
  let price ← answered (env.execPrice stock) .priceNotLive
  pure (t, price)

def State.setFlow (s : State) (stock : Address) (f : Flow) : State :=
  { s with flow := Function.update s.flow stock f }

def State.setShares (s : State) (stock : Address) (amount : Nat) : State :=
  { s with shares := Function.update s.shares stock amount }

/-- Shares that leave for somebody else. -/
def State.payShares (s : State) (stock to_ : Address) (amount : Nat) : State :=
  if to_ = c.self then s else s.setShares stock (s.shares stock - amount)

/-- Native USDC that leaves for somebody else. -/
def State.payUsdc (s : State) (to_ : Address) (amount : Nat) : State :=
  if to_ = c.self then s else { s with usdc := s.usdc - amount }

def recipient (env : Env) (to_ : Address) : Address := if to_ = 0 then env.sender else to_

def buy (s : State) (env : Env) (stock : Address) (value minSharesOut : Nat) (to_ : Address) :
    Tx (Nat × State) := do
  require (s.paused = false) .isPaused
  require (value ≠ 0) .zeroAmount
  let (t, price) ← live s env stock
  require (value ≤ t.maxTradeUsd) .overTradeCap
  let f ← useFlow s env stock t value true
  let sharesOut := sharesFor value price t.spreadBps
  require (sharesOut ≤ s.shares stock) .outOfStock
  require (minSharesOut ≤ sharesOut) .slippage
  require (env.delivers = true) .transferFailed
  let paid := { s.setFlow stock f with usdc := s.usdc + value }
  pure (sharesOut, paid.payShares c stock (recipient env to_) sharesOut)

def sell (s : State) (env : Env) (stock : Address) (sharesIn minUsdcOut : Nat) (to_ : Address) :
    Tx (Nat × State) := do
  require (s.paused = false) .isPaused
  require (sharesIn ≠ 0) .zeroAmount
  let (t, price) ← live s env stock
  let gross := grossFor sharesIn price
  require (gross ≤ t.maxTradeUsd) .overTradeCap
  let f ← useFlow s env stock t gross false
  let usdcOut := payoutFor gross t.sellSpreadBps
  require (usdcOut ≤ s.usdc) .outOfUsdc
  require (minUsdcOut ≤ usdcOut) .slippage
  require (env.pulls = true) .transferFailed
  require (env.delivers = true) .transferFailed
  let pulled := (s.setFlow stock f).setShares stock (s.shares stock + sharesIn)
  pure (usdcOut, pulled.payUsdc c (recipient env to_) usdcOut)

/-! Quotes. -/

/-- `_peek`: the price is 0 where there is none. -/
def peek (s : State) (env : Env) (stock : Address) : Terms × Nat × Bool :=
  let t := s.terms stock
  if t.underlying = 0 then (t, 0, false)
  else match env.execPrice stock with
    | some price => (t, price, t.enabled && env.transferable stock)
    | none => (t, 0, false)

def quoteBuy (s : State) (env : Env) (stock : Address) (usdcIn : Nat) : Nat × Bool :=
  let (t, price, isLive) := peek s env stock
  if price = 0 then (0, false)
  else
    let sharesOut := sharesFor usdcIn price t.spreadBps
    (sharesOut, decide (isLive = true ∧ s.paused = false ∧ 0 < usdcIn ∧ usdcIn ≤ t.maxTradeUsd ∧
      usdcIn ≤ flowLeft s env stock t true ∧ sharesOut ≤ s.shares stock))

def quoteSell (s : State) (env : Env) (stock : Address) (sharesIn : Nat) : Nat × Bool :=
  let (t, price, isLive) := peek s env stock
  if price = 0 then (0, false)
  else
    let gross := grossFor sharesIn price
    let usdcOut := payoutFor gross t.sellSpreadBps
    (usdcOut, decide (isLive = true ∧ s.paused = false ∧ 0 < sharesIn ∧ gross ≤ t.maxTradeUsd ∧
      gross ≤ flowLeft s env stock t false ∧ usdcOut ≤ s.usdc))

def capacity (s : State) (env : Env) (stock : Address) : Nat × Nat :=
  let (t, price, isLive) := peek s env stock
  if isLive = false ∨ s.paused = true ∨ price = 0 then (0, 0)
  else
    let stockUsd := s.shares stock * price / 10 ^ 18
    (min (min (stockUsd * bps / (bps - t.spreadBps)) t.maxTradeUsd) (flowLeft s env stock t true),
      min (min (s.usdc * bps / (bps - t.sellSpreadBps)) t.maxTradeUsd) (flowLeft s env stock t false))

/-! Refilling through the hub. -/

def restockerOnly (env : Env) : Tx Unit := require (env.sender = c.restocker ∨ env.sender = c.owner) .notRestocker

/-- The least that an order may ask for of what the oracle says it is worth. -/
def floorOf (worth : Nat) : Nat := worth * (bps - hubFeeBps - restockSlippageBps) / bps

def restock (s : State) (env : Env) (stock : Address) (usdcIn minShares : Nat) : Tx State := do
  restockerOnly c env
  let _ ← listed s stock
  let worth ← answered (env.rawFor stock usdcIn) .priceNotLive
  require (minShares ≠ 0 ∧ floorOf worth ≤ minShares) .slippage
  require (usdcIn + env.quoteOrder ≤ s.usdc) .outOfUsdc
  require (env.hubAccepts = true) .hubReverted
  pure { s with usdc := s.usdc - (usdcIn + env.quoteOrder) }

def unstock (s : State) (env : Env) (stock : Address) (sharesIn minUsdc : Nat) : Tx State := do
  restockerOnly c env
  let _ ← listed s stock
  let worth ← answered (env.usdFor stock sharesIn) .priceNotLive
  require (minUsdc ≠ 0 ∧ floorOf worth ≤ minUsdc) .slippage
  require (env.quoteOrder ≤ s.usdc) .outOfUsdc
  require (env.hubAccepts = true ∧ sharesIn ≤ s.shares stock) .hubReverted
  pure ({ s with usdc := s.usdc - env.quoteOrder }.setShares stock (s.shares stock - sharesIn))

/-- A call that may have the hub pay back, with what it pays. -/
def settleHubOrder (s : State) (env : Env) (stock : Address) (shares usdc : Nat) : Tx State := do
  restockerOnly c env
  require (env.hubAccepts = true) .hubReverted
  pure ({ s with usdc := s.usdc + usdc }.setShares stock (s.shares stock + shares))

def cancelHubOrder (s : State) (env : Env) (stock : Address) (shares usdc : Nat) : Tx State :=
  settleHubOrder c s env stock shares usdc

def claimHub (s : State) (env : Env) (stock : Address) (shares usdc : Nat) : Tx State :=
  settleHubOrder c s env stock shares usdc

/-- A canonical exit, for the gate's fee. -/
def escalateHub (s : State) (env : Env) : Tx State := do
  restockerOnly c env
  require (hookFee ≤ s.usdc ∧ env.hubAccepts = true) .hubReverted
  pure { s with usdc := s.usdc - hookFee }

def escalateHubOrder (s : State) (env : Env) : Tx State := escalateHub c s env

def escalateHubFunds (s : State) (env : Env) : Tx State := escalateHub c s env

/-! Governance. -/

def setTerms (s : State) (env : Env) (stock : Address)
    (spreadBps sellSpreadBps maxTradeUsd flowCapUsd : Nat) (enabled : Bool) : Tx State := do
  require (env.sender = c.owner) .notOwner
  if fits : spreadBps ≤ maxSpreadBps ∧ sellSpreadBps ≤ maxSpreadBps then do
    require (env.underlyingOfToken stock ≠ 0) .notAStock
    let t : Terms := ⟨env.underlyingOfToken stock, spreadBps, sellSpreadBps, maxTradeUsd, flowCapUsd, enabled,
      fits.1, fits.2⟩
    pure { s with terms := Function.update s.terms stock t }
  else throw (.revert .spreadTooHigh)

/-- `withdraw`: to the treasury, native USDC for asset 0. -/
def withdraw (s : State) (env : Env) (asset amount : Nat) : Tx State := do
  require (env.sender = c.owner) .notOwner
  require (env.delivers = true) .transferFailed
  if asset = 0 then do
    require (amount ≤ s.usdc) .transferFailed
    pure { s with usdc := s.usdc - amount }
  else do
    require (amount ≤ s.shares asset) .transferFailed
    pure (s.setShares asset (s.shares asset - amount))

def pause (s : State) (env : Env) : Tx State := do
  require (env.sender = c.guardian ∨ env.sender = c.owner) .notGuardian
  pure { s with paused := true }

def unpause (s : State) (env : Env) : Tx State := do
  require (env.sender = c.owner) .notOwner
  pure { s with paused := false }

inductive Action where
  | buy (stock : Address) (value minSharesOut : Nat) (to_ : Address)
  | sell (stock : Address) (sharesIn minUsdcOut : Nat) (to_ : Address)
  | restock (stock : Address) (usdcIn minShares : Nat)
  | unstock (stock : Address) (sharesIn minUsdc : Nat)
  | cancelHubOrder (stock : Address) (shares usdc : Nat)
  | claimHub (stock : Address) (shares usdc : Nat)
  | escalateHubOrder
  | escalateHubFunds
  | setTerms (stock : Address) (spreadBps sellSpreadBps maxTradeUsd flowCapUsd : Nat) (enabled : Bool)
  | withdraw (asset amount : Nat)
  | pause
  | unpause
  /-- `receive`, and shares that anybody transfers in. -/
  | receive (stock : Address) (shares usdc : Nat)

structure Step where
  env : Env
  action : Action

def step (s : State) (t : Step) : Tx State :=
  match t.action with
  | .buy stock value minSharesOut to_ => do
    let (_, after) ← buy c s t.env stock value minSharesOut to_
    pure after
  | .sell stock sharesIn minUsdcOut to_ => do
    let (_, after) ← sell c s t.env stock sharesIn minUsdcOut to_
    pure after
  | .restock stock usdcIn minShares => restock c s t.env stock usdcIn minShares
  | .unstock stock sharesIn minUsdc => unstock c s t.env stock sharesIn minUsdc
  | .cancelHubOrder stock shares usdc => cancelHubOrder c s t.env stock shares usdc
  | .claimHub stock shares usdc => claimHub c s t.env stock shares usdc
  | .escalateHubOrder => escalateHubOrder c s t.env
  | .escalateHubFunds => escalateHubFunds c s t.env
  | .setTerms stock spreadBps sellSpreadBps maxTradeUsd flowCapUsd enabled =>
    setTerms c s t.env stock spreadBps sellSpreadBps maxTradeUsd flowCapUsd enabled
  | .withdraw asset amount => withdraw c s t.env asset amount
  | .pause => pause c s t.env
  | .unpause => unpause c s t.env
  | .receive stock shares usdc =>
    pure ({ s with usdc := s.usdc + usdc }.setShares stock (s.shares stock + shares))

end Solonpad.InstantDesk
