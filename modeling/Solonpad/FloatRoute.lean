import Solonpad.FloatRebalancer
import Solonpad.Transition

/-!
The three contracts with what is on its way between them: burns and returns over CCTP, OFT transfers with
their composed messages, and the receiver's reports over LayerZero. A message leaves the wire when it is
executed, at any time and in any order; one that its receiver refuses stays.
-/

namespace Solonpad.FloatRoute

open Checked CctpV2 Transition
open Chain (Address)

structure Config where
  rebalancer : FloatRebalancer.Config
  adapter : FloatAdapter.Config
  receiver : FloatReceiver.Config

structure State where
  rebalancer : FloatRebalancer.State
  adapter : FloatAdapter.State
  receiver : FloatReceiver.State
  burns : List (Parsed StartHook)
  transfers : List Compose
  /-- Composed messages whose tokens the receiver has. -/
  composes : List Compose
  receipts : List Receipt
  returns : List (Parsed Id)
  /-- The number of CCTP messages so far, which numbers the next. -/
  nonce : Nat

variable (c : Config)

def deployed (balance rhReceiver native : Nat) : State where
  rebalancer := FloatRebalancer.deployed balance
  adapter := FloatAdapter.deployed rhReceiver
  receiver := FloatReceiver.deployed native
  burns := []
  transfers := []
  composes := []
  receipts := []
  returns := []
  nonce := 1

/-- The attested message of a start. -/
def startMessage (nonce amount : Nat) (hook : StartHook) : Parsed StartHook where
  sourceDomain := c.adapter.arcDomain
  nonce := nonce
  sender := c.adapter.arcTokenMessenger
  mintRecipient := c.adapter.self
  amount := amount
  messageSender := c.adapter.arcRebalancer
  hookData := hook

/-- The attested message of a return. -/
def returnMessage (nonce amount : Nat) (id : Id) : Parsed Id where
  sourceDomain := c.rebalancer.ethDomain
  nonce := nonce
  sender := c.rebalancer.ethTokenMessenger
  mintRecipient := c.rebalancer.self
  amount := amount
  messageSender := c.rebalancer.ethAdapter
  hookData := id

def taken {α : Type} (list : List α) (index : Nat) : Tx (α × List α) :=
  match list[index]? with
  | some message => .ok (message, list.eraseIdx index)
  | none => .error (.revert .receiveFailed)

inductive Action where
  | proposeEnable (sender : Address) (now : Nat)
  | enable (sender : Address) (now : Nat)
  | disable (sender : Address)
  | start (now : Nat) (q : FloatRebalancer.StartQuote) (signed : Bool)
  | expire (now : Nat) (id : Id)
  | receiveReturn (index : Nat)
  | lzReceive (index : Nat)
  | sweepDust (sender : Address) (paid : Bool)
  | setReceiver (sender receiver : Address)
  | attest (index : Nat)
  | convert (now : Nat) (q : FloatAdapter.ConvertQuote) (signed : Bool)
      (conversion : Option FloatAdapter.Conversion)
  | bridge (now : Nat) (id : Id) (sending : Option FloatAdapter.Sending)
  | expireLeg (now : Nat) (id : Id)
  | returnToArc (id : Id)
  /-- The OFT credits the tokens of a transfer. -/
  | credit (index : Nat)
  | lzCompose (index fee : Nat)
  /-- Money that anyone sends the contracts. -/
  | donate (balance adapterUsdc adapterUsdg receiverUsdg coins : Nat)

def step (s : State) : Action → Tx State
  | .proposeEnable sender now => do
    let rebalancer ← FloatRebalancer.proposeEnable c.rebalancer s.rebalancer sender now
    pure { s with rebalancer := rebalancer }
  | .enable sender now => do
    let rebalancer ← FloatRebalancer.enable c.rebalancer s.rebalancer sender now
    pure { s with rebalancer := rebalancer }
  | .disable sender => do
    let rebalancer ← FloatRebalancer.disable c.rebalancer s.rebalancer sender
    pure { s with rebalancer := rebalancer }
  | .start now q signed => do
    let (rebalancer, hook) ← FloatRebalancer.start s.rebalancer now q signed
    pure { s with
      rebalancer := rebalancer
      burns := s.burns ++ [startMessage c s.nonce q.amount hook]
      nonce := s.nonce + 1 }
  | .expire now id => do
    let rebalancer ← FloatRebalancer.expire s.rebalancer now id
    pure { s with rebalancer := rebalancer }
  | .receiveReturn index => do
    let (message, rest) ← taken s.returns index
    let rebalancer ← FloatRebalancer.receiveReturn c.rebalancer s.rebalancer message true
    pure { s with rebalancer := rebalancer, returns := rest }
  | .lzReceive index => do
    let (message, rest) ← taken s.receipts index
    let rebalancer ← FloatRebalancer.lzReceive c.rebalancer s.rebalancer c.rebalancer.rhEid message
    pure { s with rebalancer := rebalancer, receipts := rest }
  | .sweepDust sender paid => do
    let rebalancer ← FloatRebalancer.sweepDust c.rebalancer s.rebalancer sender paid
    pure { s with rebalancer := rebalancer }
  | .setReceiver sender receiver => do
    let adapter ← FloatAdapter.setReceiver c.adapter s.adapter sender receiver
    pure { s with adapter := adapter }
  | .attest index => do
    let (message, rest) ← taken s.burns index
    let adapter ← FloatAdapter.attest c.adapter s.adapter message true
    pure { s with adapter := adapter, burns := rest }
  | .convert now q signed conversion => do
    let adapter ← FloatAdapter.convert s.adapter now q signed conversion
    pure { s with adapter := adapter }
  | .bridge now id sending => do
    let (adapter, message) ← FloatAdapter.bridge s.adapter now id sending
    pure { s with adapter := adapter, transfers := s.transfers ++ [message] }
  | .expireLeg now id => do
    let adapter ← FloatAdapter.expire s.adapter now id
    pure { s with adapter := adapter }
  | .returnToArc id => do
    let (adapter, amount) ← FloatAdapter.returnToArc s.adapter id
    pure { s with
      adapter := adapter
      returns := s.returns ++ [returnMessage c s.nonce amount id]
      nonce := s.nonce + 1 }
  | .credit index => do
    let (message, rest) ← taken s.transfers index
    pure { s with
      receiver := { s.receiver with usdg := s.receiver.usdg + message.amount }
      transfers := rest
      composes := s.composes ++ [message] }
  | .lzCompose index fee => do
    let (message, rest) ← taken s.composes index
    let (receiver, receipt) ← FloatReceiver.lzCompose c.receiver s.receiver c.receiver.oft
      c.receiver.ethAdapter message fee
    pure { s with receiver := receiver, composes := rest, receipts := s.receipts ++ [receipt] }
  | .donate balance adapterUsdc adapterUsdg receiverUsdg coins => pure { s with
      rebalancer := { s.rebalancer with balance := s.rebalancer.balance + balance }
      adapter := { s.adapter with
        usdc := s.adapter.usdc + adapterUsdc, usdg := s.adapter.usdg + adapterUsdg }
      receiver := { s.receiver with
        usdg := s.receiver.usdg + receiverUsdg, native := s.receiver.native + coins } }

def accepts (s : State) (action : Action) (after : State) : Prop := step c s action = .ok after

theorem taken_ok {α : Type} (list rest : List α) (index : Nat) (message : α) :
    taken list index = .ok (message, rest) ↔ list[index]? = some message ∧ rest = list.eraseIdx index := by
  unfold taken
  split
  · next same => simp [same, eq_comm]
  · next none => simp [none]

end Solonpad.FloatRoute
