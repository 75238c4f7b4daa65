import Solonpad.Chain
import Solonpad.LockedCalls

/-!
`ProtocolVault.sol`: revenue, budgets and sponsored pots on one native balance. A governed call runs the
call data that was scheduled for it. A payment is open while the one it pays answers, and whoever that
calls may use the functions without the lock meanwhile. Schedule calls and the governed calls that ran are
kept, in order, for the proofs.
-/

namespace Solonpad.ProtocolVault

open Checked LockedCalls
open Chain (Address)

inductive VaultError where
  | wrongPool | unknownPool | ledgerPaymentFailed | inexactRevenue | alreadyWired | converterOnly | deskOnly
  | invalidReceipt | governanceOnly | timelocked | bufferFloor | cannotEraseObligations | unfundedCommitments
  | reservedFunds | paymentFailed | budgetExceeded | invalidPot | potSourceOnly | invalidCommitments
  | assignedFunds | potTransferFailed
  deriving DecidableEq, Repr

abbrev Tx (α : Type) := Checked.Tx VaultError α

inductive Governed where
  | setCommitments (debt budget buffer : Nat)
  | withdrawSurplus (recipient : Address) (amount : Nat)
  | allocateOps (amount version : Nat)
  | registerPot (id : Nat) (source : Address) (destinationId : Nat) (destination : Address)
  | routeUnallocatedPot (id amount destinationId : Nat)
  deriving DecidableEq

/-- The call data of a governed call: what it decodes to, and the bytes after it that decoding leaves. -/
structure Calldata where
  call : Governed
  rest : List UInt8
  deriving DecidableEq

structure Config where
  self : Address
  governance : Address
  treasury : Address
  keccak256 : Calldata → Nat

structure Pot where
  source : Address
  destinationId : Nat
  destination : Address
  cash : Nat
  committed : Nat
  inFlight : Nat
  reserved : Nat

inductive Event where
  | scheduled (action at_ : Nat)
  | ran (data : Calldata) (at_ : Nat)
  deriving DecidableEq

structure Book where
  liabilities : Nat
  executionBudget : Nat
  operatingBuffer : Nat
  stockConverter : Address
  desk : Address
  creditedReceipt : Address × Nat → Bool
  stockConversionRevenue : Nat
  deskRevenue : Nat
  pots : Nat → Pot
  potCash : Nat
  enabledPools : Nat → Bool
  ledgerRevenue : Nat
  scheduledAt : Nat → Nat
  /-- The native balance. -/
  balance : Nat
  history : List Event

def ether : Nat := 10 ^ 18

def hours : Nat := 3600

def deployed (balance : Nat) : Book where
  liabilities := 0
  executionBudget := 0
  operatingBuffer := 100 * ether
  stockConverter := 0
  desk := 0
  creditedReceipt := fun _ => false
  stockConversionRevenue := 0
  deskRevenue := 0
  pots := fun _ => ⟨0, 0, 0, 0, 0, 0, 0⟩
  potCash := 0
  enabledPools := fun _ => false
  ledgerRevenue := 0
  scheduledAt := fun _ => 0
  balance := balance
  history := []

variable (c : Config)

/-! Revenue. -/

/-- `enablePool`. `ours` says what the ledger answers about the pool, `enabled` that it takes the opt-in. -/
def enablePool (b : Book) (poolId : Nat) (ours enabled : Bool) : Tx Book := do
  require (ours = true ∧ enabled = true) .wrongPool
  pure { b with enabledPools := Function.update b.enabledPools poolId true }

def configureSources (b : Book) (sender converter desk : Address) : Tx Book := do
  require (sender = c.governance ∧ b.stockConverter = 0 ∧ converter ≠ 0 ∧ desk ≠ 0) .alreadyWired
  pure { b with stockConverter := converter, desk := desk }

/-- `_revenue`, with the value that came along already in the balance. -/
def revenue (b : Book) (sender : Address) (id value : Nat) : Tx Book := do
  require (id ≠ 0 ∧ value ≠ 0 ∧ b.creditedReceipt (sender, id) = false) .invalidReceipt
  pure { b with creditedReceipt := Function.update b.creditedReceipt (sender, id) true }

def fundFromConverter (b : Book) (sender : Address) (id value : Nat) : Tx Book := do
  require (sender = b.stockConverter) .converterOnly
  let b ← revenue { b with balance := b.balance + value } sender id value
  pure { b with stockConversionRevenue := b.stockConversionRevenue + value }

def receiveDeskProtocol (b : Book) (sender : Address) (id value : Nat) : Tx Book := do
  require (sender = b.desk) .deskOnly
  let b ← revenue { b with balance := b.balance + value } sender id value
  pure { b with deskRevenue := b.deskRevenue + value }

/-! Governance. -/

def schedule (b : Book) (sender : Address) (now action : Nat) : Tx Book := do
  require (sender = c.governance ∧ action ≠ 0) .governanceOnly
  pure { b with
    scheduledAt := Function.update b.scheduledAt action (now + 48 * hours)
    history := b.history ++ [.scheduled action now] }

/-- `_consume`: a governed call spends what was scheduled for its call data. -/
def consume (b : Book) (sender : Address) (now : Nat) (data : Calldata) : Tx Book := do
  let action := c.keccak256 data
  let at_ := b.scheduledAt action
  require (sender = c.governance ∧ at_ ≠ 0 ∧ at_ ≤ now) .timelocked
  pure { b with
    scheduledAt := Function.update b.scheduledAt action 0
    history := b.history ++ [.ran data now] }

def setCommitments (b : Book) (debt budget buffer : Nat) : Tx Book := do
  require (100 * ether ≤ buffer) .bufferFloor
  require (b.liabilities ≤ debt ∧ b.executionBudget ≤ budget) .cannotEraseObligations
  require (debt + budget + buffer + b.potCash ≤ b.balance) .unfundedCommitments
  pure { b with liabilities := debt, executionBudget := budget, operatingBuffer := buffer }

def Book.locked (b : Book) : Nat := b.liabilities + b.executionBudget + b.operatingBuffer + b.potCash

def Book.availableSurplus (b : Book) : Nat :=
  if b.locked < b.balance then b.balance - b.locked else 0

/-- What an open call still has to do. -/
inductive Frame where
  | surplus (amount : Nat)
  | ops
  | pot
  | ledger (beforeBalance amount : Nat)

def withdrawSurplus (b : Book) (recipient : Address) (amount : Nat) : Tx (Book × Frame) := do
  require (recipient = c.treasury ∧ amount ≤ b.availableSurplus) .reservedFunds
  let balance ← sub b.balance amount
  pure ({ b with balance := balance }, .surplus amount)

def allocateOps (b : Book) (amount version : Nat) : Tx (Book × Frame) := do
  require (amount ≠ 0 ∧ version ≠ 0 ∧ amount ≤ b.executionBudget) .budgetExceeded
  require (b.locked ≤ b.balance) .reservedFunds
  let executionBudget ← sub b.executionBudget amount
  let balance ← sub b.balance amount
  pure ({ b with executionBudget := executionBudget, balance := balance }, .ops)

/-! Pots. -/

def Book.setPot (b : Book) (id : Nat) (p : Pot) : Book :=
  { b with pots := Function.update b.pots id p }

def registerPot (b : Book) (id : Nat) (source : Address) (destinationId : Nat) (destination : Address)
    (hasCode : Bool) : Tx Book := do
  require (id ≠ 0 ∧ source ≠ 0 ∧ destinationId ≠ 0 ∧ hasCode = true ∧ destination ≠ c.self ∧
    (b.pots id).source = 0) .invalidPot
  pure (b.setPot id ⟨source, destinationId, destination, 0, 0, 0, 0⟩)

def fundPot (b : Book) (sender : Address) (id value : Nat) : Tx Book := do
  let p := b.pots id
  require (sender = p.source ∧ value ≠ 0) .potSourceOnly
  pure { b.setPot id { p with cash := p.cash + value } with
    potCash := b.potCash + value
    balance := b.balance + value }

def commitPot (b : Book) (sender : Address) (id assigned inFlight reserved : Nat) : Tx Book := do
  let p := b.pots id
  require (sender = p.source) .potSourceOnly
  require (p.committed ≤ assigned ∧ p.inFlight ≤ inFlight ∧ p.reserved ≤ reserved ∧
    assigned + inFlight + reserved ≤ p.cash) .invalidCommitments
  pure (b.setPot id { p with committed := assigned, inFlight := inFlight, reserved := reserved })

def routeUnallocatedPot (b : Book) (id amount destinationId : Nat) : Tx (Book × Frame) := do
  let p := b.pots id
  let free ← sub p.cash p.committed
  let free ← sub free p.inFlight
  let free ← sub free p.reserved
  require (destinationId = p.destinationId ∧ amount ≠ 0 ∧ amount ≤ free) .assignedFunds
  let cash ← sub p.cash amount
  let potCash ← sub b.potCash amount
  let balance ← sub b.balance amount
  pure ({ b.setPot id { p with cash := cash } with potCash := potCash, balance := balance }, .pot)

/-- `collectLedger` up to the ledger's payment. -/
def collectLedger (b : Book) (amount : Nat) (ours : Bool) : Tx (Book × Frame) := do
  require (ours = true ∧ amount ≠ 0) .unknownPool
  pure (b, .ledger b.balance amount)

/-- A call from the answer of whom it paid, or was paid by, on. -/
def conclude (b : Book) (frame : Frame) (accepted : Bool) : Tx Book :=
  match frame with
  | .surplus _ => do
    require (accepted = true) .paymentFailed
    pure b
  | .ops => do
    require (accepted = true) .paymentFailed
    pure b
  | .pot => do
    require (accepted = true) .potTransferFailed
    pure b
  | .ledger beforeBalance amount => do
    require (accepted = true) .ledgerPaymentFailed
    require (b.balance = beforeBalance + amount) .inexactRevenue
    pure { b with ledgerRevenue := b.ledgerRevenue + amount }

/-! Calls. -/

/-- No call comes from the zero address. -/
abbrev Caller := { sender : Address // sender ≠ 0 }

inductive Free where
  /-- Coin that arrives, with or without a call. -/
  | receive (value : Nat)
  | enablePool (poolId : Nat) (ours enabled : Bool)
  | configureSources (sender : Caller) (converter desk : Address)
  | fundFromConverter (sender : Caller) (id value : Nat)
  | receiveDeskProtocol (sender : Caller) (id value : Nat)
  | schedule (sender : Caller) (now action : Nat)
  | setCommitments (sender : Caller) (now debt budget buffer : Nat) (rest : List UInt8)
  | registerPot (sender : Caller) (now id : Nat) (source : Address) (destinationId : Nat)
      (destination : Address) (rest : List UInt8) (hasCode : Bool)
  | fundPot (sender : Caller) (id value : Nat)
  | commitPot (sender : Caller) (id assigned inFlight reserved : Nat)

def free (b : Book) : Free → Tx Book
  | .receive value => .ok { b with balance := b.balance + value }
  | .enablePool poolId ours enabled => enablePool b poolId ours enabled
  | .configureSources sender converter desk => configureSources c b sender converter desk
  | .fundFromConverter sender id value => fundFromConverter b sender id value
  | .receiveDeskProtocol sender id value => receiveDeskProtocol b sender id value
  | .schedule sender now action => schedule c b sender now action
  | .setCommitments sender now debt budget buffer rest => do
    let b ← consume c b sender now ⟨.setCommitments debt budget buffer, rest⟩
    setCommitments b debt budget buffer
  | .registerPot sender now id source destinationId destination rest hasCode => do
    let b ← consume c b sender now ⟨.registerPot id source destinationId destination, rest⟩
    registerPot c b id source destinationId destination hasCode
  | .fundPot sender id value => fundPot b sender id value
  | .commitPot sender id assigned inFlight reserved => commitPot b sender id assigned inFlight reserved

inductive Payment where
  | withdrawSurplus (sender : Caller) (now : Nat) (recipient : Address) (amount : Nat) (rest : List UInt8)
  | allocateOps (sender : Caller) (now amount version : Nat) (rest : List UInt8)
  | routeUnallocatedPot (sender : Caller) (now id amount destinationId : Nat) (rest : List UInt8)
  | collectLedger (amount : Nat) (ours : Bool)

def payment (b : Book) : Payment → Tx (Book × Frame)
  | .withdrawSurplus sender now recipient amount rest => do
    let b ← consume c b sender now ⟨.withdrawSurplus recipient amount, rest⟩
    withdrawSurplus c b recipient amount
  | .allocateOps sender now amount version rest => do
    let b ← consume c b sender now ⟨.allocateOps amount version, rest⟩
    allocateOps b amount version
  | .routeUnallocatedPot sender now id amount destinationId rest => do
    let b ← consume c b sender now ⟨.routeUnallocatedPot id amount destinationId, rest⟩
    routeUnallocatedPot b id amount destinationId
  | .collectLedger amount ours => collectLedger b amount ours

def contract : Contract VaultError Book Frame Free Empty Payment Bool where
  free := free c
  whole _ call := call.elim
  enter := payment c
  leave := conclude

end Solonpad.ProtocolVault
