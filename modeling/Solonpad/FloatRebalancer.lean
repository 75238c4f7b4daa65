import Solonpad.CctpV2

/-!
The three contracts that move float from Arc to the reserve: `FloatRebalancer.sol` starts and ends a
rebalance, `EthereumFloatAdapter.sol` converts and bridges its leg or sends it back, and
`FloatReceiver.sol` passes it to the vault and reports. What a call hands to a bridge is returned beside the
new state. Balances in USDC have 6 decimals; the rebalancer's own is the native balance, with 18.
-/

namespace Solonpad.FloatRoute

open Checked CctpV2
open Chain (Address)

inductive FloatError where
  | disabled | timelocked | badQuote | insufficientFree | wrongState | wrongSource | receiveFailed
  | notGuardian | notOwner | duplicate | slippageTooWide | expired | wrongComposer | notOft
  | transferFailed | notEnoughNative
  deriving DecidableEq, Repr

abbrev Tx (α : Type) := Checked.Tx FloatError α

abbrev Id := Nat

/-- What a start tells the adapter. -/
structure StartHook where
  id : Id
  minUSDG : Nat
  deadline : Nat

/-- `(id, guid, amount)` of the receiver's report. -/
structure Receipt where
  id : Id
  guid : Nat
  received : Nat

/-- An OFT transfer with its composed message. -/
structure Compose where
  id : Id
  guid : Nat
  amount : Nat

end Solonpad.FloatRoute

/-! On Arc. -/

namespace Solonpad.FloatRebalancer

open Checked CctpV2 FloatRoute
open Chain (Address)

inductive Phase where
  | none
  | sent
  | finalized
  | quarantined
  | returned
  deriving DecidableEq, Repr

structure Config where
  self : Address
  owner : Address
  guardian : Address
  ethDomain : Nat
  ethTokenMessenger : Address
  ethAdapter : Address
  rhEid : Nat

structure StartQuote where
  id : Id
  amount : Nat
  minUSDG : Nat
  deadline : Nat
  nonce : Nat

structure Rebalance where
  state : Phase
  amount : Nat
  minUSDG : Nat
  deadline : Nat
  guid : Nat
  received : Nat
  returned : Nat

structure State where
  enabled : Bool
  enableEta : Nat
  inFlight : Nat
  rebalances : Id → Rebalance
  nonceUsed : Nat → Bool
  /-- The native balance. -/
  balance : Nat

def deployed (balance : Nat) : State where
  enabled := false
  enableEta := 0
  inFlight := 0
  rebalances := fun _ => ⟨.none, 0, 0, 0, 0, 0, 0⟩
  nonceUsed := fun _ => false
  balance := balance

def enableDelay : Nat := 48 * 3600

/-- One unit of the 6-decimal view of the native balance. -/
def unit : Nat := 10 ^ 12

def State.usdc (s : State) : Nat := s.balance / unit

def State.set (s : State) (id : Id) (r : Rebalance) : State :=
  { s with rebalances := Function.update s.rebalances id r }

variable (c : Config)

def proposeEnable (s : State) (sender : Address) (now : Nat) : Tx State := do
  require (sender = c.owner) .notOwner
  pure { s with enableEta := now + enableDelay }

def enable (s : State) (sender : Address) (now : Nat) : Tx State := do
  require (sender = c.owner) .notOwner
  require (¬ (s.enableEta = 0 ∨ now < s.enableEta)) .timelocked
  pure { s with enableEta := 0, enabled := true }

def disable (s : State) (sender : Address) : Tx State := do
  require (¬ (sender ≠ c.guardian ∧ sender ≠ c.owner)) .notGuardian
  pure { s with enabled := false, enableEta := 0 }

/-- `start`, with the hook it burns `q.amount` for; `signed` says that the signer signed the quote. -/
def start (s : State) (now : Nat) (q : StartQuote) (signed : Bool) : Tx (State × StartHook) := do
  require (s.enabled = true) .disabled
  require (¬ (q.id = 0 ∨ q.amount = 0 ∨ q.minUSDG = 0 ∨ q.amount < q.minUSDG ∨ q.deadline ≤ now ∨
    s.nonceUsed q.nonce = true ∨ (s.rebalances q.id).state ≠ .none ∨ signed = false)) .badQuote
  require (¬ s.usdc < q.amount) .insufficientFree
  pure ({ s.set q.id ⟨.sent, q.amount, q.minUSDG, q.deadline, 0, 0, 0⟩ with
    nonceUsed := Function.update s.nonceUsed q.nonce true
    inFlight := s.inFlight + q.amount
    balance := s.balance - q.amount * unit }, ⟨q.id, q.minUSDG, q.deadline⟩)

def expire (s : State) (now : Nat) (id : Id) : Tx State := do
  let r := s.rebalances id
  require (¬ (r.state ≠ .sent ∨ now ≤ r.deadline)) .wrongState
  pure (s.set id { r with state := .quarantined })

/-- `receiveReturn`: the message mints its amount here, and its hook is the id. -/
def receiveReturn (s : State) (p : Parsed Id) (attested : Bool) : Tx State := do
  let before := s.usdc
  require (attested = true) .receiveFailed
  let s := { s with balance := s.balance + p.amount * unit }
  require (¬ (p.sourceDomain ≠ c.ethDomain ∨ p.sender ≠ c.ethTokenMessenger ∨
    p.messageSender ≠ c.ethAdapter)) .wrongSource
  let id := p.hookData
  let r := s.rebalances id
  require (¬ (r.state ≠ .sent ∧ r.state ≠ .quarantined)) .wrongState
  let returned ← sub s.usdc before
  let inFlight ← sub s.inFlight r.amount
  pure { s.set id { r with state := .returned, returned := returned } with inFlight := inFlight }

/-- `_lzReceive`. -/
def lzReceive (s : State) (srcEid : Nat) (m : Receipt) : Tx State := do
  require (srcEid = c.rhEid) .wrongSource
  let r := s.rebalances m.id
  require (¬ (r.state ≠ .sent ∧ r.state ≠ .quarantined)) .wrongState
  let inFlight ← sub s.inFlight r.amount
  pure { s.set m.id { r with state := .finalized, guid := m.guid, received := m.received } with
    inFlight := inFlight }

def sweepDust (s : State) (sender : Address) (paid : Bool) : Tx State := do
  require (sender = c.owner) .notOwner
  let dust := s.balance % unit
  if dust = 0 then pure s
  else do
    require (paid = true) .receiveFailed
    pure { s with balance := s.balance - dust }

end Solonpad.FloatRebalancer

/-! On Ethereum. -/

namespace Solonpad.FloatAdapter

open Checked CctpV2 FloatRoute
open Chain (Address)

inductive Phase where
  | none
  | attested
  | converted
  | bridging
  | quarantined
  | returned
  deriving DecidableEq, Repr

structure Config where
  self : Address
  owner : Address
  arcDomain : Nat
  arcTokenMessenger : Address
  arcRebalancer : Address

structure ConvertQuote where
  id : Id
  minOut : Nat
  deadline : Nat
  nonce : Nat

structure Leg where
  state : Phase
  cctpNonce : Nat
  usdc : Nat
  usdg : Nat
  minUSDG : Nat
  deadline : Nat
  guid : Nat

structure State where
  rhReceiver : Address
  legs : Id → Leg
  legOfNonce : Nat → Id
  quoteNonceUsed : Nat → Bool
  /-- Its balances of the two tokens. -/
  usdc : Nat
  usdg : Nat

def deployed (rhReceiver : Address) : State where
  rhReceiver := rhReceiver
  legs := fun _ => ⟨.none, 0, 0, 0, 0, 0, 0⟩
  legOfNonce := fun _ => 0
  quoteNonceUsed := fun _ => false
  usdc := 0
  usdg := 0

def maxSlippageBps : Nat := 30

def State.set (s : State) (id : Id) (l : Leg) : State :=
  { s with legs := Function.update s.legs id l }

variable (c : Config)

def setReceiver (s : State) (sender receiver : Address) : Tx State := do
  require (sender = c.owner) .notOwner
  require (¬ (s.rhReceiver ≠ 0 ∨ receiver = 0)) .duplicate
  pure { s with rhReceiver := receiver }

/-- `attest`: the message mints its amount to its recipient. -/
def attest (s : State) (p : Parsed StartHook) (attested : Bool) : Tx State := do
  let before := s.usdc
  require (attested = true) .receiveFailed
  let s := { s with usdc := s.usdc + (if p.mintRecipient = c.self then p.amount else 0) }
  require (¬ (p.sourceDomain ≠ c.arcDomain ∨ p.sender ≠ c.arcTokenMessenger ∨
    p.messageSender ≠ c.arcRebalancer ∨ p.mintRecipient ≠ c.self)) .wrongSource
  let id := p.hookData.id
  require (¬ ((s.legs id).state ≠ .none ∨ s.legOfNonce p.nonce ≠ 0)) .duplicate
  let got ← sub s.usdc before
  pure { s.set id ⟨.attested, p.nonce, got, 0, p.hookData.minUSDG, p.hookData.deadline, 0⟩ with
    legOfNonce := Function.update s.legOfNonce p.nonce id }

/-- What the converter does with its allowance: what it takes, and what it brings. -/
structure Conversion where
  taken : Nat
  out : Nat

/-- `convert`; no conversion when the converter reverts. -/
def convert (s : State) (now : Nat) (q : ConvertQuote) (signed : Bool) (conversion : Option Conversion) :
    Tx State := do
  let l := s.legs q.id
  require (l.state = .attested) .wrongState
  require (¬ l.deadline < now) .expired
  require (¬ (q.minOut * 10000 < l.usdc * (10000 - maxSlippageBps) ∨ q.minOut < l.minUSDG))
    .slippageTooWide
  require (¬ (q.deadline < now ∨ s.quoteNonceUsed q.nonce = true ∨ signed = false)) .badQuote
  match conversion with
  | none => throw (.revert .transferFailed)
  | some conversion => do
    require (conversion.taken ≤ l.usdc ∧ conversion.taken ≤ s.usdc) .transferFailed
    let out := conversion.out
    require (¬ out < q.minOut) .slippageTooWide
    pure { s.set q.id { l with usdg := out, state := .converted } with
      quoteNonceUsed := Function.update s.quoteNonceUsed q.nonce true
      usdc := s.usdc - conversion.taken
      usdg := s.usdg + out }

/-- What the OFT answers to a send. -/
structure Sending where
  guid : Nat
  amountSent : Nat
  amountReceived : Nat

/-- `bridge`, with the message the OFT carries; no sending when the OFT reverts. -/
def bridge (s : State) (now : Nat) (id : Id) (sending : Option Sending) : Tx (State × Compose) := do
  let l := s.legs id
  require (¬ (l.state ≠ .converted ∨ s.rhReceiver = 0)) .wrongState
  require (¬ l.deadline < now) .expired
  match sending with
  | none => throw (.revert .transferFailed)
  | some sending => do
    require (sending.amountSent ≤ l.usdg ∧ sending.amountSent ≤ s.usdg) .transferFailed
    require (¬ sending.amountReceived < l.minUSDG) .slippageTooWide
    pure ({ s.set id { l with guid := sending.guid, state := .bridging } with
      usdg := s.usdg - sending.amountSent }, ⟨id, sending.guid, sending.amountReceived⟩)

def expire (s : State) (now : Nat) (id : Id) : Tx State := do
  let l := s.legs id
  require (¬ ((l.state ≠ .attested ∧ l.state ≠ .converted) ∨ now ≤ l.deadline)) .wrongState
  pure (s.set id { l with state := .quarantined })

/-- `returnToArc`, with the amount it burns for the id. -/
def returnToArc (s : State) (id : Id) : Tx (State × Nat) := do
  let l := s.legs id
  require (¬ (l.state ≠ .quarantined ∨ l.usdg ≠ 0)) .wrongState
  require (l.usdc ≤ s.usdc) .transferFailed
  pure ({ s.set id { l with state := .returned } with usdc := s.usdc - l.usdc }, l.usdc)

end Solonpad.FloatAdapter

/-! On the reserve chain. -/

namespace Solonpad.FloatReceiver

open Checked FloatRoute
open Chain (Address)

structure Config where
  oft : Address
  ethAdapter : Address

structure State where
  guidUsed : Nat → Bool
  received : Id → Nat
  usdg : Nat
  native : Nat
  /-- What the vault was given, by id. -/
  credits : List (Id × Nat)

def deployed (native : Nat) : State where
  guidUsed := fun _ => false
  received := fun _ => 0
  usdg := 0
  native := native
  credits := []

variable (c : Config)

/-- `lzCompose` by the endpoint, with the report it sends for `fee` of its own gas. -/
def lzCompose (s : State) (oft composeFrom : Address) (m : Compose) (fee : Nat) : Tx (State × Receipt) := do
  require (oft = c.oft) .notOft
  require (composeFrom = c.ethAdapter) .wrongComposer
  require (¬ (s.guidUsed m.guid = true ∨ s.received m.id ≠ 0)) .duplicate
  require (m.amount ≤ s.usdg) .transferFailed
  require (fee ≤ s.native) .notEnoughNative
  pure ({ s with
    guidUsed := Function.update s.guidUsed m.guid true
    received := Function.update s.received m.id m.amount
    usdg := s.usdg - m.amount
    native := s.native - fee
    credits := s.credits ++ [(m.id, m.amount)] }, ⟨m.id, m.guid, m.amount⟩)

end Solonpad.FloatReceiver
