import Solonpad.Chain
import Solonpad.LockedCalls

/-!
`OpsVault.sol`: budgets by purpose that verified receipts spend. A payment is open while its target
answers, and whoever the target calls may add budget meanwhile. What was paid is kept for the proofs.
-/

namespace Solonpad.OpsVault

open Checked LockedCalls
open Chain (Address)

inductive OpsError where
  | invalidTarget | invalidFeeTarget | invalidSubsidyTarget | alreadyWired | protocolOnly | emptyFunding
  | governanceOnly | unbackedBudget | invalidExpense | unverifiedReceipt | tipAlreadyPaid | expenseFailed
  | invalidDeskExpense | wrongTokenRange | receiptUsed | opsShortfall | deskFundingFailed
  deriving DecidableEq, Repr

abbrev Tx (α : Type) := Checked.Tx OpsError α

/-- A receipt as an expense gives it, or what a desk surcharge hashes. -/
inductive Receipt where
  | given (id : Nat)
  | deskSurcharge (lotId firstTokenId cards : Nat) (desk : Address)
  deriving DecidableEq

structure Expense where
  orderId : Nat
  kind : Nat
  receipt : Receipt
  amount : Nat
  budgetVersion : Nat
  deadline : Nat

structure Config where
  governance : Address
  protocol : Address

structure Book where
  targets : Nat → Address
  typedFeeTarget : Nat → Bool
  shortfallTarget : Nat → Bool
  budget : Nat → Nat
  paidReceipt : Receipt → Bool
  tippedOrder : Nat → Bool
  desk : Address
  protocolDeskVault : Address
  totalBudget : Nat
  unbudgetedSchedule : Nat × Nat → Nat
  /-- The native balance. -/
  balance : Nat
  paid : List Receipt

def deskBudgetVersion : Nat := 7

def deployed (balance : Nat) : Book where
  targets := fun _ => 0
  typedFeeTarget := fun _ => false
  shortfallTarget := fun _ => false
  budget := fun _ => 0
  paidReceipt := fun _ => false
  tippedOrder := fun _ => false
  desk := 0
  protocolDeskVault := 0
  totalBudget := 0
  unbudgetedSchedule := fun _ => 0
  balance := balance
  paid := []

variable (c : Config)

/-! Wiring. -/

def Book.setTarget (b : Book) (kind : Nat) (target : Address) : Book :=
  { b with targets := Function.update b.targets kind target }

def configureTarget (b : Book) (sender : Address) (kind : Nat) (target : Address) : Tx Book := do
  require (sender = c.governance ∧ kind < 7 ∧ target ≠ 0 ∧ b.targets kind = 0) .invalidTarget
  pure (b.setTarget kind target)

def configureFeeTarget (b : Book) (sender : Address) (kind : Nat) (target : Address) (hasCode : Bool) :
    Tx Book := do
  require (sender = c.governance ∧ 0 < kind ∧ kind < 7 ∧ hasCode = true ∧ b.targets kind = 0)
    .invalidFeeTarget
  pure { b.setTarget kind target with typedFeeTarget := Function.update b.typedFeeTarget kind true }

def configureSubsidyTarget (b : Book) (sender : Address) (kind : Nat) (target : Address)
    (hasCode : Bool) : Tx Book := do
  require (sender = c.governance ∧ kind = 6 ∧ hasCode = true ∧ b.targets kind = 0) .invalidSubsidyTarget
  pure { b.setTarget kind target with shortfallTarget := Function.update b.shortfallTarget kind true }

def configureDesk (b : Book) (sender desk vault : Address) (hasCode : Bool) : Tx Book := do
  require (sender = c.governance ∧ b.desk = 0 ∧ hasCode = true ∧ vault ≠ 0) .alreadyWired
  pure { b with desk := desk, protocolDeskVault := vault }

/-! Budgets. -/

def Book.fund (b : Book) (version amount : Nat) : Book :=
  { b with
    budget := Function.update b.budget version (b.budget version + amount)
    totalBudget := b.totalBudget + amount }

def receiveBudget (b : Book) (sender : Address) (version value : Nat) : Tx Book := do
  require (sender = c.protocol ∧ version ≠ 0 ∧ value ≠ 0) .protocolOnly
  pure ({ b with balance := b.balance + value }.fund version value)

def fundBudget (b : Book) (version value : Nat) : Tx Book := do
  require (version ≠ 0 ∧ value ≠ 0) .emptyFunding
  pure ({ b with balance := b.balance + value }.fund version value)

def scheduleUnbudgeted (b : Book) (sender : Address) (now version amount : Nat) : Tx Book := do
  require (sender = c.governance ∧ version ≠ 0 ∧ amount ≠ 0) .governanceOnly
  pure { b with
    unbudgetedSchedule := Function.update b.unbudgetedSchedule (version, amount) (now + 48 * 3600) }

def allocateUnbudgeted (b : Book) (now version amount : Nat) : Tx Book := do
  let at_ := b.unbudgetedSchedule (version, amount)
  let excess ← sub b.balance b.totalBudget
  require (at_ ≠ 0 ∧ at_ ≤ now ∧ amount ≤ excess) .unbackedBudget
  pure ({ b with unbudgetedSchedule := Function.update b.unbudgetedSchedule (version, amount) 0 }.fund
    version amount)

/-! Payments. -/

/-- What a payment changes before its target is called. -/
def pay (b : Book) (receipt : Receipt) (version amount : Nat) : Tx Book := do
  let left ← sub (b.budget version) amount
  let totalBudget ← sub b.totalBudget amount
  let balance ← sub b.balance amount
  pure { b with
    paidReceipt := Function.update b.paidReceipt receipt true
    budget := Function.update b.budget version left
    totalBudget := totalBudget
    balance := balance }

/-- `payExpense` up to the target's call. `verified` says that the verifier signed the expense. -/
def payExpense (b : Book) (now : Nat) (e : Expense) (verified : Bool) : Tx (Book × Receipt) := do
  require (e.budgetVersion ≠ deskBudgetVersion ∧ e.orderId ≠ 0 ∧ e.receipt ≠ .given 0 ∧
    b.paidReceipt e.receipt = false ∧ e.amount ≠ 0 ∧ e.amount ≤ b.budget e.budgetVersion ∧
    now ≤ e.deadline ∧ b.targets e.kind ≠ 0) .invalidExpense
  require (verified = true) .unverifiedReceipt
  require (¬ (e.kind = 0 ∧ b.tippedOrder e.orderId = true)) .tipAlreadyPaid
  let b := if e.kind = 0 then { b with tippedOrder := Function.update b.tippedOrder e.orderId true } else b
  let b ← pay b e.receipt e.budgetVersion e.amount
  pure (b, e.receipt)

/-- `payDeskSurcharge` up to the vault's call, with what the desk answers. -/
def payDeskSurcharge (b : Book) (sender : Address) (lotId firstTokenId cards : Nat) (desk : Address)
    (nextTokenId surchargeUSDC18 : Nat) : Tx (Book × Receipt) := do
  require (sender = b.protocolDeskVault ∧ desk = b.desk ∧ lotId ≠ 0 ∧ cards ≠ 0 ∧ cards ≤ 20)
    .invalidDeskExpense
  require (firstTokenId = nextTokenId) .wrongTokenRange
  let receipt := Receipt.deskSurcharge lotId firstTokenId cards desk
  require (b.paidReceipt receipt = false) .receiptUsed
  let amount := surchargeUSDC18 * cards
  require (amount ≠ 0 ∧ amount ≤ b.budget deskBudgetVersion) .opsShortfall
  let b ← pay b receipt deskBudgetVersion amount
  pure (b, receipt)

/-- A payment from the target's answer on. -/
def conclude (b : Book) (receipt : Receipt) (accepted : Bool) : Tx Book := do
  require (accepted = true) .expenseFailed
  pure { b with paid := b.paid ++ [receipt] }

/-! Calls. -/

inductive Free where
  | configureTarget (sender : Address) (kind : Nat) (target : Address)
  | configureFeeTarget (sender : Address) (kind : Nat) (target : Address) (hasCode : Bool)
  | configureSubsidyTarget (sender : Address) (kind : Nat) (target : Address) (hasCode : Bool)
  | configureDesk (sender desk vault : Address) (hasCode : Bool)
  /-- A refund, or coin that arrives without a call. -/
  | receive (value : Nat)
  | receiveBudget (sender : Address) (version value : Nat)
  | fundBudget (version value : Nat)
  | scheduleUnbudgeted (sender : Address) (now version amount : Nat)
  | allocateUnbudgeted (now version amount : Nat)

def free (b : Book) : Free → Tx Book
  | .configureTarget sender kind target => configureTarget c b sender kind target
  | .configureFeeTarget sender kind target hasCode => configureFeeTarget c b sender kind target hasCode
  | .configureSubsidyTarget sender kind target hasCode =>
    configureSubsidyTarget c b sender kind target hasCode
  | .configureDesk sender desk vault hasCode => configureDesk c b sender desk vault hasCode
  | .receive value => .ok { b with balance := b.balance + value }
  | .receiveBudget sender version value => receiveBudget c b sender version value
  | .fundBudget version value => fundBudget b version value
  | .scheduleUnbudgeted sender now version amount => scheduleUnbudgeted c b sender now version amount
  | .allocateUnbudgeted now version amount => allocateUnbudgeted b now version amount

inductive Payment where
  | expense (now : Nat) (e : Expense) (verified : Bool)
  | deskSurcharge (sender : Address) (lotId firstTokenId cards : Nat) (desk : Address)
      (nextTokenId surchargeUSDC18 : Nat)

def payment (b : Book) : Payment → Tx (Book × Receipt)
  | .expense now e verified => payExpense b now e verified
  | .deskSurcharge sender lotId firstTokenId cards desk nextTokenId surchargeUSDC18 =>
    payDeskSurcharge b sender lotId firstTokenId cards desk nextTokenId surchargeUSDC18

def contract : Contract OpsError Book Receipt Free Empty Payment Bool where
  free := free c
  whole _ call := call.elim
  enter := payment
  leave := conclude

end Solonpad.OpsVault
