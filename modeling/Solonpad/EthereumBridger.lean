import Solonpad.CctpV2
import Solonpad.Messages

/-!
The canonical relay on Ethereum, `EthereumBridger.sol`: deliveries from Arc become retryable tickets, and
checkpoints from the rollup go on to Arc as hooks that cost 1 USDC each. Tickets and hooks are kept as they
were created. The token messenger takes what it is approved for and refuses no burn.
-/

namespace Solonpad.Bridger

open Checked Messages CctpV2
open Chain (Address)

inductive BridgerError where
  | wrongSource | notFromGate | receiveFailed | unknownRef | notOutbox | notFromVault | nothingToForward
  | insufficientUsdc | transferFailed | ticketRefused | notOwner
  deriving DecidableEq, Repr

abbrev Tx (α : Type) := Checked.Tx BridgerError α

structure Config where
  self : Address
  owner : Address
  bridge : Address
  arcDomain : Nat
  arcTokenMessenger : Address
  gate : Address
  vault : Address

variable {Hash : Type}

structure State (Hash : Type) where
  deliveries : Ref → Deliver
  relayed : Ref → Bool
  checkpoints : List (Checkpoint Hash)
  forwardedThrough : Nat
  /-- The USDC balance. -/
  usdc : Nat
  tickets : List Deliver
  hooks : List (Checkpoint Hash)

def Deliver.blank : Deliver := ⟨.order 0, 0, 0, 0, .stock⟩

def deployed (usdc : Nat) : State Hash where
  deliveries := fun _ => Deliver.blank
  relayed := fun _ => false
  checkpoints := []
  forwardedThrough := 0
  usdc := usdc
  tickets := []
  hooks := []

/-- `HOOK_AMOUNT`: what rides along with a hook. -/
def hookAmount : Nat := 10 ^ 6

variable (c : Config)

/-! Arc to the rollup. -/

/-- `_ticket`; `accepted` says that the inbox takes it for the value that was sent. -/
def ticket (s : State Hash) (d : Deliver) (accepted : Bool) : Tx (State Hash) := do
  require (accepted = true) .ticketRefused
  pure { s with tickets := s.tickets ++ [d] }

/-- `attested` says that the transmitter takes the message, which it does once. -/
def relay (s : State Hash) (p : Parsed Deliver) (attested accepted : Bool) : Tx (State Hash) := do
  require (attested = true) .receiveFailed
  require (p.sourceDomain = c.arcDomain ∧ p.sender = c.arcTokenMessenger) .wrongSource
  require (p.messageSender = c.gate) .notFromGate
  let d := p.hookData
  ticket { s with
    usdc := s.usdc + (if p.mintRecipient = c.self then p.amount else 0)
    deliveries := Function.update s.deliveries d.ref d
    relayed := Function.update s.relayed d.ref true } d accepted

def retry (s : State Hash) (ref : Ref) (accepted : Bool) : Tx (State Hash) := do
  require (s.relayed ref = true) .unknownRef
  ticket s (s.deliveries ref) accepted

/-! The rollup to Arc. -/

/-- The loop of `_forward` over the checkpoints that wait, each taken with the balance left by then. -/
def forwardLoop (s : State Hash) : List (Checkpoint Hash) → Tx (State Hash)
  | [] => pure s
  | checkpoint :: rest => do
    let have_ := s.usdc
    require (¬ have_ < hookAmount) .insufficientUsdc
    forwardLoop { s with
      usdc := s.usdc - hookAmount
      hooks := s.hooks ++ [checkpoint]
      forwardedThrough := s.forwardedThrough + 1 } rest

/-- `_forward`. -/
def forwardAll (s : State Hash) : Tx (State Hash) := forwardLoop s (s.checkpoints.drop s.forwardedThrough)

/-- `l2Sender` is who sent the message on the rollup, as the outbox tells. -/
def acceptCheckpoint (s : State Hash) (sender l2Sender : Address) (checkpoint : Checkpoint Hash) :
    Tx (State Hash) := do
  require (sender = c.bridge) .notOutbox
  require (l2Sender = c.vault) .notFromVault
  let s := { s with checkpoints := s.checkpoints ++ [checkpoint] }
  if hookAmount ≤ s.usdc then forwardAll s else pure s

def forward (s : State Hash) : Tx (State Hash) := do
  require (s.forwardedThrough ≠ s.checkpoints.length) .nothingToForward
  forwardAll s

/-! Funds. -/

def fund (s : State Hash) (amount : Nat) (paid : Bool) : Tx (State Hash) := do
  require (paid = true) .transferFailed
  pure { s with usdc := s.usdc + amount }

def withdraw (s : State Hash) (sender : Address) (amount : Nat) : Tx (State Hash) := do
  require (sender = c.owner) .notOwner
  require (amount ≤ s.usdc) .transferFailed
  pure { s with usdc := s.usdc - amount }

/-! One call by any sender; anyone may also send the bridger USDC. -/

inductive Action (Hash : Type) where
  | relay (message : Parsed Deliver) (attested accepted : Bool)
  | retry (ref : Ref) (accepted : Bool)
  | acceptCheckpoint (l2Sender : Address) (checkpoint : Checkpoint Hash)
  | forward
  | fund (amount : Nat) (paid : Bool)
  | withdraw (amount : Nat)
  | donate (amount : Nat)

structure Call (Hash : Type) where
  sender : Address
  action : Action Hash

def step (s : State Hash) (call : Call Hash) : Tx (State Hash) :=
  match call.action with
  | .relay message attested accepted => relay c s message attested accepted
  | .retry ref accepted => retry s ref accepted
  | .acceptCheckpoint l2Sender checkpoint => acceptCheckpoint c s call.sender l2Sender checkpoint
  | .forward => forward s
  | .fund amount paid => fund s amount paid
  | .withdraw amount => withdraw c s call.sender amount
  | .donate amount => pure { s with usdc := s.usdc + amount }

def accepts (s : State Hash) (call : Call Hash) (after : State Hash) : Prop := step c s call = .ok after

end Solonpad.Bridger
