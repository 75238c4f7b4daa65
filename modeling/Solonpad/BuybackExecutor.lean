import Solonpad.Chain
import Solonpad.LockedCalls

/-!
`BuybackBurnExecutor.sol`: lots of native coin that signed quotes spend on a token. A purchase is open
while the route and the destination answer, and whoever they call may fund lots meanwhile. Ids are
what they hash, so a collection's lot and a part of a lot are told from ids that other contracts
give. The ledger pays a claim without calling anyone else. What was executed is kept for the proofs.
-/

namespace Solonpad.BuybackExecutor

open Checked LockedCalls
open Chain (Address)

inductive BuybackError where
  | alreadyWired | invalidPolicy | timelockedPolicy | ledgerOnly | unknownPool | ledgerPaymentFailed
  | inexactRevenue | converterOnly | v2Only | invalidLot | invalidBudget | invalidQuote | signature
  | inexactBuyback | depositFailed | unconsumedOutput
  deriving DecidableEq, Repr

abbrev Tx (α : Type) := Checked.Tx BuybackError α

inductive LotId where
  | given (id : Nat)
  | collection (poolId nonce : Nat)
  deriving DecidableEq

/-- `purchaseId`: a lot bought at once, or a part of one by the quote's nonce. -/
inductive PurchaseId where
  | whole (lot : LotId)
  | part (lot : LotId) (nonce : Nat)
  deriving DecidableEq

structure Lot where
  budget : Nat
  bought : Nat
  protocolDesk : Bool
  executed : Bool
  spent : Nat
  deriving DecidableEq

structure Quote where
  lotId : LotId
  budget : Nat
  minOut : Nat
  pricePolicyVersion : Nat
  quotedAt : Nat
  deadline : Nat
  nonce : Nat

structure Config where
  governance : Address
  ledger : Address

structure Book where
  signer : Address
  stockConverter : Address
  v2Router : Address
  lots : LotId → Lot
  nonceUsed : Nat → Bool
  pricePolicyVersion : Nat
  pendingSigner : Address
  pendingPolicyVersion : Nat
  policyExecutableAt : Nat
  totalBudget : Nat
  poolCollectionNonce : Nat → Nat
  /-- The native balance. -/
  balance : Nat
  purchases : List PurchaseId

def Lot.empty : Lot := ⟨0, 0, false, false, 0⟩

def deployed (signer : Address) (balance : Nat) : Book where
  signer := signer
  stockConverter := 0
  v2Router := 0
  lots := fun _ => .empty
  nonceUsed := fun _ => false
  pricePolicyVersion := 1
  pendingSigner := 0
  pendingPolicyVersion := 0
  policyExecutableAt := 0
  totalBudget := 0
  poolCollectionNonce := fun _ => 0
  balance := balance
  purchases := []

def Lot.left (l : Lot) : Nat := l.budget - l.spent

def maxPurchase : Nat := 1000 * 10 ^ 18

variable (c : Config)

/-! Wiring and the price policy. -/

def configureSources (b : Book) (sender converter router : Address) : Tx Book := do
  require (sender = c.governance ∧ b.stockConverter = 0 ∧ converter ≠ 0 ∧ router ≠ 0) .alreadyWired
  pure { b with stockConverter := converter, v2Router := router }

def schedulePricePolicy (b : Book) (sender : Address) (now : Nat) (signer : Address) (version : Nat) :
    Tx Book := do
  require (sender = c.governance ∧ signer ≠ 0 ∧ b.pricePolicyVersion < version) .invalidPolicy
  pure { b with
    pendingSigner := signer
    pendingPolicyVersion := version
    policyExecutableAt := now + 48 * 3600 }

def activatePricePolicy (b : Book) (now : Nat) : Tx Book := do
  require (b.policyExecutableAt ≠ 0 ∧ b.policyExecutableAt ≤ now) .timelockedPolicy
  pure { b with
    signer := b.pendingSigner
    pricePolicyVersion := b.pendingPolicyVersion
    pendingSigner := 0
    pendingPolicyVersion := 0
    policyExecutableAt := 0 }

/-! Funding. -/

def receive (b : Book) (sender : Address) (value : Nat) : Tx Book := do
  require (sender = c.ledger) .ledgerOnly
  pure { b with balance := b.balance + value }

/-- `_recordFund`. -/
def recordFund (b : Book) (id : LotId) (amount : Nat) (protocolDesk : Bool) : Tx Book := do
  require (id ≠ .given 0 ∧ amount ≠ 0 ∧ (b.lots id).budget = 0) .invalidLot
  pure { b with
    lots := Function.update b.lots id ⟨amount, 0, protocolDesk, false, 0⟩
    totalBudget := b.totalBudget + amount }

/-- `known` says that the ledger's pool pays this contract by controlled claims, `claimed` what the
claim returns and `paid` what it paid. -/
def collectLedger (b : Book) (poolId amount : Nat) (known claimed : Bool) (paid : Nat) : Tx Book := do
  require (known = true ∧ amount ≠ 0) .unknownPool
  let balance := b.balance + paid
  require (claimed = true) .ledgerPaymentFailed
  require (balance = b.balance + amount) .inexactRevenue
  let nonce := b.poolCollectionNonce poolId + 1
  recordFund { b with
    balance := balance
    poolCollectionNonce := Function.update b.poolCollectionNonce poolId nonce }
    (.collection poolId nonce) amount false

def fundFromConverter (b : Book) (sender : Address) (id : LotId) (value : Nat) : Tx Book := do
  require (sender = b.stockConverter) .converterOnly
  recordFund { b with balance := b.balance + value } id value false

def fundV2 (b : Book) (sender : Address) (id : LotId) (value : Nat) (protocolDesk : Bool) : Tx Book := do
  require (sender = b.v2Router) .v2Only
  recordFund { b with balance := b.balance + value } id value protocolDesk

/-! Purchases. -/

structure Purchase where
  quote : Quote
  id : PurchaseId

/-- `execute` up to the call of the route. `signed` says that the present signer signed the quote. -/
def execute (b : Book) (now : Nat) (q : Quote) (signed : Bool) : Tx (Book × Purchase) := do
  let l := b.lots q.lotId
  let left ← sub l.budget l.spent
  require (l.executed = false ∧ q.budget ≤ left ∧ q.budget ≠ 0 ∧ q.budget ≤ maxPurchase) .invalidBudget
  require (q.minOut ≠ 0 ∧ q.pricePolicyVersion = b.pricePolicyVersion ∧ q.quotedAt ≤ now ∧
    now - q.quotedAt ≤ 60 ∧ now ≤ q.deadline ∧ q.deadline ≤ q.quotedAt + 60 ∧
    b.nonceUsed q.nonce = false) .invalidQuote
  require (signed = true) .signature
  let id : PurchaseId :=
    if l.spent = 0 ∧ q.budget = l.budget then .whole q.lotId else .part q.lotId q.nonce
  let spent := l.spent + q.budget
  let totalBudget ← sub b.totalBudget q.budget
  let balance ← sub b.balance q.budget
  pure ({ b with
    nonceUsed := Function.update b.nonceUsed q.nonce true
    lots := Function.update b.lots q.lotId
      { l with spent := spent, executed := decide (spent = l.budget) }
    totalBudget := totalBudget
    balance := balance }, ⟨q, id⟩)

/-- What the route and the destination answer: the token received and reported, whether the deposit
succeeds and whether it takes all. -/
structure Answer where
  received : Nat
  reported : Nat
  deposited : Bool
  consumed : Bool

/-- `execute` from the route's answer on. -/
def conclude (b : Book) (p : Purchase) (a : Answer) : Tx Book := do
  require (p.quote.minOut ≤ a.received ∧ a.reported = a.received) .inexactBuyback
  require (a.deposited = true) .depositFailed
  require (a.consumed = true) .unconsumedOutput
  let l := b.lots p.quote.lotId
  pure { b with
    lots := Function.update b.lots p.quote.lotId { l with bought := l.bought + a.received }
    purchases := b.purchases ++ [p.id] }

/-! Calls. -/

inductive Free where
  | configureSources (sender converter router : Address)
  | schedulePricePolicy (sender : Address) (now : Nat) (signer : Address) (version : Nat)
  | activatePricePolicy (now : Nat)
  | receive (sender : Address) (value : Nat)
  | fundFromConverter (sender : Address) (id : LotId) (value : Nat)
  | fundV2 (sender : Address) (id : LotId) (value : Nat) (protocolDesk : Bool)
  /-- Coin that arrives without a call. -/
  | forced (value : Nat)

def free (b : Book) : Free → Tx Book
  | .configureSources sender converter router => configureSources c b sender converter router
  | .schedulePricePolicy sender now signer version => schedulePricePolicy c b sender now signer version
  | .activatePricePolicy now => activatePricePolicy b now
  | .receive sender value => receive c b sender value
  | .fundFromConverter sender id value => fundFromConverter b sender id value
  | .fundV2 sender id value protocolDesk => fundV2 b sender id value protocolDesk
  | .forced value => .ok { b with balance := b.balance + value }

structure Collect where
  poolId : Nat
  amount : Nat
  known : Bool
  claimed : Bool
  paid : Nat

structure Execute where
  now : Nat
  quote : Quote
  signed : Bool

def contract : Contract BuybackError Book Purchase Free Collect Execute Answer where
  free := free c
  whole b call := collectLedger b call.poolId call.amount call.known call.claimed call.paid
  enter b call := execute b call.now call.quote call.signed
  leave := conclude

end Solonpad.BuybackExecutor
