import Mathlib.Data.Fin.VecNotation
import Mathlib.Logic.Relation
import Solonpad.CarriedSplit
import Solonpad.Chain

/-!
`V3FeeLedger.sol`: the six-way ledger of a pool's fees. Other contracts are met in two ways: what
they answer is part of a call's environment, and while one of them runs it may call back into the
ledger, so every external call passes through `external`. A call that fails leaves no trace, the
inner payment of a claim included. The legacy names under which holders are told of a credit are
left out: nothing here reads them.
-/

namespace Solonpad.FeeLedger

open Checked CarriedSplit
open Chain (Address)

abbrev PoolId := Nat
abbrev Bucket := Fin 6

inductive LedgerError where
  | unauthorized | invalidPool | required | lotPaymentFailed | zeroFee | unbackedClaims
  | missingCallback | inexactRedemption | inexactTransfer | useStockLotCustody
  | insufficientCredit | paymentFailed | notSharedNative | reentrantCall | callFailed
  deriving DecidableEq, Repr

abbrev Tx (α : Type) := Checked.Tx LedgerError α

structure Pool where
  /-- 0 is native money. -/
  quote : Address
  settlementKind : Nat
  /-- 0 is no pool. -/
  hook : Address
  beneficiaries : Bucket → Address

/-- What the ledger keeps under a pool's id. -/
structure Account where
  accrued : Bucket → Nat
  remainder : Bucket → Nat
  totalReceived : Nat
  totalPaid : Nat
  nextLotId : Nat
  pendingClaims : Nat
  claimsManager : Address
  stockLotCustody : Bucket → Bool
  controlledClaim : Bucket → Bool
  stockLotAmount : Nat → Bucket → Nat

def Account.blank : Account :=
  ⟨fun _ => 0, fun _ => 0, 0, 0, 0, 0, 0, fun _ => false, fun _ => false, fun _ _ => 0⟩

/-- Native and token balances by holder, and the ledger's ERC6909 claims on each pool manager. -/
structure World where
  coins : Address → Nat
  tokens : Address → Address → Nat
  claims : Address → Address → Nat

/-- The event of one fee lot. -/
structure FeeCredited where
  poolId : PoolId
  lotId : Nat
  amount : Nat
  allocated : Bucket → Nat

structure State where
  pools : PoolId → Pool
  accounts : PoolId → Account
  reservedClaims : Address → Address → Nat
  redemptionManager : Address
  /-- The pool whose redemption a manager may call back for. -/
  redemptionCallback : Option PoolId
  entered : Bool
  world : World
  credits : List FeeCredited

structure Config where
  self : Address
  factory : Address
  /-- 0 disables the six-decimals payout. -/
  nativeUsdcView : Address

/-- One call and what the other contracts answer in it: whether the `k`-th external call returns
and what it does before it returns, which accounts have code, the custody mode a beneficiary
states, the hook's pool manager and whether that is unlocked, what a redemption delivers, and
what a token payment makes of the token's balances and of the native ones it is a view of. -/
structure Env where
  sender : Address
  value : Nat
  answers : Nat → Bool
  foreign : Nat → State → State
  hasCode : Address → Bool
  custodyMode : Address → Option Nat
  poolManager : Address
  unlocked : Bool
  delivered : Nat
  row : Address → Nat
  coins : Address → Nat

def bps : Nat := 10000

def shares : Bucket → Nat := ![5750, 1000, 1000, 500, 1000, 750]

/-- The bucket of a pool's creator. -/
def creator : Bucket := 1

def deployed (world : World) : State where
  pools := fun _ => ⟨0, 0, 0, fun _ => 0⟩
  accounts := fun _ => Account.blank
  reservedClaims := fun _ _ => 0
  redemptionManager := 0
  redemptionCallback := none
  entered := false
  world := world
  credits := []

/-! The state's small updates. -/

def State.setAccount (s : State) (poolId : PoolId) (a : Account) : State :=
  { s with accounts := Function.update s.accounts poolId a }

def State.setWorld (s : State) (world : World) : State := { s with world := world }

def State.reserve (s : State) (manager currency : Address) (amount : Nat) : State :=
  { s with
    reservedClaims := Function.update s.reservedClaims manager
      (Function.update (s.reservedClaims manager) currency amount) }

variable (c : Config)

/-- `currency.balanceOfSelf`. -/
def World.balanceOfSelf (w : World) (currency : Address) : Nat :=
  if currency = 0 then w.coins c.self else w.tokens currency c.self

def World.arrive (w : World) (currency : Address) (amount : Nat) : World :=
  if currency = 0 then { w with coins := Function.update w.coins c.self (w.coins c.self + amount) }
  else { w with
    tokens := Function.update w.tokens currency
      (Function.update (w.tokens currency) c.self (w.tokens currency c.self + amount)) }

/-- The ledger's claims on a manager are burned. -/
def World.burn (w : World) (manager currency : Address) (amount : Nat) : World :=
  { w with
    claims := Function.update w.claims manager
      (Function.update (w.claims manager) currency (w.claims manager currency - amount)) }

/-- The `k`-th external call: it fails the whole call, or runs and returns. -/
def external (s : State) (env : Env) (k : Nat) : Tx State := do
  require (env.answers k = true) .callFailed
  pure (env.foreign k s)

/-- `nonReentrant`. -/
def nonReentrant {α : Type} (s : State) (body : State → Tx (State × α)) : Tx (State × α) := do
  require (s.entered = false) .reentrantCall
  let (s, value) ← body { s with entered := true }
  pure ({ s with entered := false }, value)

/-- `roundingReserve`. -/
def Account.roundingReserve (a : Account) : Nat := (∑ bucket, a.remainder bucket) / bps

/-! Redemption of pool-manager claims. -/

/-- `_burnAndTake`. -/
def burnAndTake (s : State) (env : Env) (poolId : PoolId) : Tx State := do
  let a := s.accounts poolId
  let amount := a.pendingClaims
  let manager := a.claimsManager
  let currency := (s.pools poolId).quote
  let s := s.setAccount poolId { a with pendingClaims := 0 }
  let reserved ← sub (s.reservedClaims manager currency) amount
  let s := s.reserve manager currency reserved
  let before := s.world.balanceOfSelf c currency
  require (amount ≤ s.world.claims manager currency) .callFailed
  let s ← external (s.setWorld (s.world.burn manager currency amount)) env 0
  let s ← external (s.setWorld (s.world.arrive c currency env.delivered)) env 1
  require (s.world.balanceOfSelf c currency = before + amount) .inexactRedemption
  pure s

/-- `_redeemClaims`: a locked manager is asked to unlock and calls back. -/
def redeem (s : State) (env : Env) (poolId : PoolId) : Tx State :=
  let a := s.accounts poolId
  if a.pendingClaims = 0 then pure s
  else do
    let s := { s with redemptionManager := a.claimsManager }
    let s ← (if env.unlocked then burnAndTake c s env poolId
      else do
        let s ← external { s with redemptionCallback := some poolId } env 2
        require (s.redemptionCallback = none) .missingCallback
        pure s : Tx State)
    pure { s with redemptionManager := 0 }

def unlockCallback (s : State) (env : Env) (poolId : PoolId) : Tx State := do
  require (env.sender = s.redemptionManager ∧ s.redemptionCallback = some poolId) .unauthorized
  burnAndTake c { s with redemptionCallback := none } env poolId

/-- `receive`. -/
def receiveNative (s : State) (env : Env) : Tx State := do
  require (env.sender = s.redemptionManager) .unauthorized
  pure (s.setWorld (s.world.arrive c 0 env.value))

/-! Fee lots. -/

/-- One bucket's part of a lot. -/
def creditBucket (amount lotId : Nat) (a : Account) (bucket : Bucket) : Tx Account := do
  let (allocation, carried) := lot bps (shares bucket) amount (a.remainder bucket)
  let accrued ← add 256 (a.accrued bucket) allocation
  pure { a with
    accrued := Function.update a.accrued bucket accrued
    remainder := Function.update a.remainder bucket carried
    stockLotAmount := if a.stockLotCustody bucket then
        Function.update a.stockLotAmount lotId
          (Function.update (a.stockLotAmount lotId) bucket allocation)
      else a.stockLotAmount }

def creditBuckets (amount lotId : Nat) : List Bucket → Account → Tx Account
  | [], a => pure a
  | bucket :: rest, a => do
    let a ← creditBucket amount lotId a bucket
    creditBuckets amount lotId rest a

/-- The receivers are told of what was allocated to them. -/
def notify (env : Env) (allocation : Bucket → Nat) : List Bucket → State → Tx State
  | [], s => pure s
  | bucket :: rest, s => do
    let s ← (if allocation bucket ≠ 0 then external s env (10 + bucket) else pure s : Tx State)
    notify env allocation rest s

def allocation (amount : Nat) (a : Account) (bucket : Bucket) : Nat :=
  (lot bps (shares bucket) amount (a.remainder bucket)).1

/-- `_credit`. -/
def credit (s : State) (env : Env) (poolId : PoolId) (amount : Nat) : Tx State := do
  require (amount ≠ 0) .zeroFee
  let a := s.accounts poolId
  let lotId := a.nextLotId
  let nextLotId ← add 256 lotId 1
  let totalReceived ← add 256 a.totalReceived amount
  let next ← creditBuckets amount lotId (List.finRange 6)
    { a with nextLotId := nextLotId, totalReceived := totalReceived }
  let s := s.setAccount poolId next
  notify env (allocation amount a) [0, 2, 3]
    { s with credits := s.credits ++ [⟨poolId, lotId, amount, allocation amount a⟩] }

def creditNative (s : State) (env : Env) (poolId : PoolId) : Tx (State × Unit) :=
  nonReentrant (s.setWorld (s.world.arrive c 0 env.value)) fun s => do
    require ((s.pools poolId).hook = env.sender) .unauthorized
    require ((s.pools poolId).quote = 0) .invalidPool
    let s ← credit s env poolId env.value
    pure (s, ())

/-- `creditClaims`: claims the manager already minted to the ledger. -/
def creditClaims (s : State) (env : Env) (poolId : PoolId) (amount : Nat) : Tx (State × Unit) :=
  nonReentrant s fun s => do
    let pool := s.pools poolId
    require (pool.hook = env.sender) .unauthorized
    let manager := env.poolManager
    let a := s.accounts poolId
    require (¬ (a.claimsManager ≠ 0 ∧ a.claimsManager ≠ manager)) .invalidPool
    let reserved ← add 256 (s.reservedClaims manager pool.quote) amount
    -- an account without code cannot answer
    require (manager ≠ 0) .callFailed
    require (reserved ≤ s.world.claims manager pool.quote) .unbackedClaims
    let pendingClaims ← add 256 a.pendingClaims amount
    let s := (s.reserve manager pool.quote reserved).setAccount poolId
      { a with claimsManager := manager, pendingClaims := pendingClaims }
    let s ← credit s env poolId amount
    pure (s, ())

def creditStock (s : State) (env : Env) (poolId : PoolId) (amount : Nat) : Tx (State × Unit) :=
  nonReentrant s fun s => do
    let quote := (s.pools poolId).quote
    require ((s.pools poolId).hook = env.sender) .unauthorized
    require (quote ≠ 0) .invalidPool
    let before := s.world.tokens quote c.self
    let s ← external (s.setWorld
      { s.world with tokens := Function.update s.world.tokens quote env.row }) env 3
    require (s.world.tokens quote c.self = before + amount) .inexactTransfer
    let s ← credit s env poolId amount
    pure (s, ())

def redeemClaims (s : State) (env : Env) (poolId : PoolId) : Tx (State × Unit) :=
  nonReentrant s fun s => do
    require ((s.pools poolId).hook ≠ 0) .invalidPool
    let s ← redeem c s env poolId
    pure (s, ())

/-! Payments. -/

/-- `executePayment`, behind its sender check: everything in it is undone when it fails. -/
def payment (s : State) (env : Env) (poolId : PoolId) (asset recipient : Address) (amount : Nat)
    (sixDecimals : Bool) : Tx State := do
  let s ← redeem c s env poolId
  let nativeBefore := s.world.coins c.self
  let recipientNativeBefore := s.world.coins recipient
  let s ← (if asset = 0 then do
      require (amount ≤ s.world.coins c.self) .paymentFailed
      let drawn := Function.update s.world.coins c.self (s.world.coins c.self - amount)
      external (s.setWorld { s.world with
        coins := Function.update drawn recipient (drawn recipient + amount) }) env 3
    else do
      let beforeSelf := s.world.tokens asset c.self
      let beforeRecipient := s.world.tokens asset recipient
      let s ← external (s.setWorld { s.world with
        tokens := Function.update s.world.tokens asset env.row
        coins := if sixDecimals then env.coins else s.world.coins }) env 3
      let left ← sub beforeSelf amount
      require (s.world.tokens asset c.self = left ∧
        s.world.tokens asset recipient = beforeRecipient + amount) .inexactTransfer
      pure s : Tx State)
  if sixDecimals then do
    let left ← sub nativeBefore (amount * 10 ^ 12)
    require (s.world.coins c.self = left ∧
      s.world.coins recipient = recipientNativeBefore + amount * 10 ^ 12) .notSharedNative
    pure s
  else pure s

def executePayment (s : State) (env : Env) (poolId : PoolId) (asset recipient : Address)
    (amount : Nat) (sixDecimals : Bool) : Tx State := do
  require (env.sender = c.self) .unauthorized
  payment c s env poolId asset recipient amount sixDecimals

/-- A bucket that exists; an array index beyond it panics. -/
def bucketOf (bucket : Nat) : Tx Bucket :=
  if small : bucket < 6 then pure ⟨bucket, small⟩ else throw .bounds

/-- `_claim`; false when the payment failed. -/
def pay (s : State) (env : Env) (poolId : PoolId) (bucket : Bucket) (amount : Nat)
    (sixDecimals : Bool) : Tx (State × Bool) := do
  let pool := s.pools poolId
  require (pool.hook ≠ 0) .invalidPool
  let a := s.accounts poolId
  require (0 < amount ∧ amount ≤ a.accrued bucket) .insufficientCredit
  let totalPaid ← add 256 a.totalPaid amount
  let taken := s.setAccount poolId { a with
    accrued := Function.update a.accrued bucket (a.accrued bucket - amount), totalPaid := totalPaid }
  match payment c taken env poolId (if sixDecimals then c.nativeUsdcView else pool.quote)
      (pool.beneficiaries bucket) (if sixDecimals then amount / 10 ^ 12 else amount) sixDecimals with
  | .ok s => pure (s, true)
  | .error _ => do
    let a := taken.accounts poolId
    let accrued ← add 256 (a.accrued bucket) amount
    let totalPaid ← sub a.totalPaid amount
    pure (taken.setAccount poolId { a with
      accrued := Function.update a.accrued bucket accrued, totalPaid := totalPaid }, false)

/-- A claimant of a controlled bucket is its beneficiary. -/
def controlled (s : State) (env : Env) (poolId : PoolId) (bucket : Nat) : Tx Unit :=
  if small : bucket < 6 then
    require (¬ ((s.accounts poolId).controlledClaim ⟨bucket, small⟩ = true ∧
      env.sender ≠ (s.pools poolId).beneficiaries ⟨bucket, small⟩)) .unauthorized
  else pure ()

def claim (s : State) (env : Env) (poolId : PoolId) (bucket amount : Nat) : Tx (State × Bool) :=
  nonReentrant s fun s => do
    controlled s env poolId bucket
    if small : bucket < 6 then do
      require ((s.accounts poolId).stockLotCustody ⟨bucket, small⟩ = false) .useStockLotCustody
      pay c s env poolId ⟨bucket, small⟩ amount false
    else throw (.revert .invalidPool)

def claimUSDC6 (s : State) (env : Env) (poolId : PoolId) (bucket amount18 : Nat) :
    Tx (State × Bool) :=
  nonReentrant s fun s => do
    controlled s env poolId bucket
    require (¬ (c.nativeUsdcView = 0 ∨ (s.pools poolId).quote ≠ 0)) .invalidPool
    if small : bucket < 6 then do
      require (¬ ((bucket = 0 ∨ bucket = 2 ∨ bucket = 3) ∧
        env.sender ≠ (s.pools poolId).beneficiaries ⟨bucket, small⟩)) .unauthorized
      pay c s env poolId ⟨bucket, small⟩ (amount18 / 10 ^ 12 * 10 ^ 12) true
    else throw (.revert .invalidPool)

def claimStockLot (s : State) (env : Env) (poolId : PoolId) (lotId bucket : Nat) :
    Tx (State × Nat) :=
  nonReentrant s fun s => do
    let bucket ← bucketOf bucket
    require (env.sender = (s.pools poolId).beneficiaries bucket) .unauthorized
    let a := s.accounts poolId
    require (a.stockLotCustody bucket = true) .required
    let amount := a.stockLotAmount lotId bucket
    require (amount ≠ 0) .required
    let s := s.setAccount poolId { a with
      stockLotAmount := Function.update a.stockLotAmount lotId
        (Function.update (a.stockLotAmount lotId) bucket 0) }
    let (s, paid) ← pay c s env poolId bucket amount false
    require (paid = true) .lotPaymentFailed
    pure (s, amount)

/-! Registration. -/

/-- What a beneficiary's stated custody mode does to its bucket. -/
def custodyOf (kind : Nat) (env : Env) (pool : Pool) (a : Account) (bucket : Bucket) : Tx Account :=
  match env.custodyMode (pool.beneficiaries bucket) with
  | none => pure a
  | some mode =>
    let controls := { a with controlledClaim := Function.update a.controlledClaim bucket true }
    if mode = 3 ∧ bucket ≤ 3 then pure controls
    else if bucket ≤ 3 then do
      require (mode = 0) .invalidPool
      pure a
    else if mode = 1 then do
      require (kind = 0) .invalidPool
      pure controls
    else if mode = 2 then do
      require (kind = 1) .invalidPool
      pure { a with stockLotCustody := Function.update a.stockLotCustody bucket true }
    else pure a

def custodyAll (kind : Nat) (env : Env) (pool : Pool) : List Bucket → Account → Tx Account
  | [], a => pure a
  | bucket :: rest, a => do
    let a ← custodyOf kind env pool a bucket
    custodyAll kind env pool rest a

def registerPool (s : State) (env : Env) (poolId : PoolId) (quote : Address) (kind : Nat)
    (hook : Address) (beneficiaries : Bucket → Address) : Tx State := do
  require (env.sender = c.factory) .unauthorized
  require (¬ ((s.pools poolId).hook ≠ 0 ∨ hook = 0 ∨ 1 < kind ∨ ¬ (kind = 0 ↔ quote = 0))) .invalidPool
  require (¬ (quote ≠ 0 ∧ (env.hasCode quote = false ∨ quote = c.nativeUsdcView))) .invalidPool
  require (∀ bucket, ¬ (beneficiaries bucket = 0 ∨ beneficiaries bucket = c.self) ∧
    ¬ ((bucket = 0 ∨ bucket = 2 ∨ bucket = 3) ∧ env.hasCode (beneficiaries bucket) = false))
    .invalidPool
  let pool : Pool := ⟨quote, kind, hook, beneficiaries⟩
  let a ← custodyAll kind env pool [2, 3, 4, 5] (s.accounts poolId)
  pure ({ s with pools := Function.update s.pools poolId pool }.setAccount poolId
    { a with nextLotId := 1 })

def registerLegacyPool (s : State) (env : Env) (poolId : PoolId) (quote hook : Address)
    (beneficiaries : Bucket → Address) : Tx State := do
  require (env.sender = c.factory) .unauthorized
  require (beneficiaries 0 = beneficiaries 3) .invalidPool
  let s ← registerPool c s env poolId quote 1 hook beneficiaries
  let a := s.accounts poolId
  pure (s.setAccount poolId { a with controlledClaim := Function.update a.controlledClaim 0 true })

/-- What both opt-ins of buckets 4 and 5 ask. -/
def optIn (s : State) (env : Env) (poolId : PoolId) (bucket : Nat) : Tx Bucket := do
  require (4 ≤ bucket ∧ bucket < 6 ∧ (s.accounts poolId).totalReceived = 0) .required
  let bucket ← bucketOf bucket
  require (env.sender = (s.pools poolId).beneficiaries bucket) .unauthorized
  pure bucket

def enableControlledClaim (s : State) (env : Env) (poolId : PoolId) (bucket : Nat) : Tx State := do
  let bucket ← optIn s env poolId bucket
  let a := s.accounts poolId
  pure (s.setAccount poolId
    { a with controlledClaim := Function.update a.controlledClaim bucket true })

def enableStockLotCustody (s : State) (env : Env) (poolId : PoolId) (bucket : Nat) : Tx State := do
  require ((s.pools poolId).settlementKind = 1) .required
  let bucket ← optIn s env poolId bucket
  let a := s.accounts poolId
  pure (s.setAccount poolId
    { a with stockLotCustody := Function.update a.stockLotCustody bucket true })

/-! The system. -/

inductive Action where
  | enableControlledClaim (poolId : PoolId) (bucket : Nat)
  | enableStockLotCustody (poolId : PoolId) (bucket : Nat)
  | claimStockLot (poolId : PoolId) (lotId bucket : Nat)
  | registerLegacyPool (poolId : PoolId) (quote hook : Address) (beneficiaries : Bucket → Address)
  | registerPool (poolId : PoolId) (quote : Address) (kind : Nat) (hook : Address)
      (beneficiaries : Bucket → Address)
  | creditNative (poolId : PoolId)
  | creditClaims (poolId : PoolId) (amount : Nat)
  | redeemClaims (poolId : PoolId)
  | unlockCallback (poolId : PoolId)
  | receive
  | creditStock (poolId : PoolId) (amount : Nat)
  | claim (poolId : PoolId) (bucket amount : Nat)
  | claimUSDC6 (poolId : PoolId) (bucket amount18 : Nat)
  | executePayment (poolId : PoolId) (asset recipient : Address) (amount : Nat) (sixDecimals : Bool)

structure Call where
  env : Env
  action : Action

def step (s : State) (call : Call) : Tx State :=
  let env := call.env
  match call.action with
  | .enableControlledClaim poolId bucket => enableControlledClaim s env poolId bucket
  | .enableStockLotCustody poolId bucket => enableStockLotCustody s env poolId bucket
  | .claimStockLot poolId lotId bucket => Prod.fst <$> claimStockLot c s env poolId lotId bucket
  | .registerLegacyPool poolId quote hook beneficiaries =>
    registerLegacyPool c s env poolId quote hook beneficiaries
  | .registerPool poolId quote kind hook beneficiaries =>
    registerPool c s env poolId quote kind hook beneficiaries
  | .creditNative poolId => Prod.fst <$> creditNative c s env poolId
  | .creditClaims poolId amount => Prod.fst <$> creditClaims s env poolId amount
  | .redeemClaims poolId => Prod.fst <$> redeemClaims c s env poolId
  | .unlockCallback poolId => unlockCallback c s env poolId
  | .receive => receiveNative c s env
  | .creditStock poolId amount => Prod.fst <$> creditStock c s env poolId amount
  | .claim poolId bucket amount => Prod.fst <$> claim c s env poolId bucket amount
  | .claimUSDC6 poolId bucket amount18 => Prod.fst <$> claimUSDC6 c s env poolId bucket amount18
  | .executePayment poolId asset recipient amount sixDecimals =>
    executePayment c s env poolId asset recipient amount sixDecimals

/-- Other contracts take nothing of what the ledger holds: no token moves without its holder's
call and no manager burns a claim without its owner's. -/
structure Spares (before after : World) : Prop where
  coins : before.coins c.self ≤ after.coins c.self
  tokens : ∀ token, before.tokens token c.self ≤ after.tokens token c.self
  claims : ∀ manager currency, before.claims manager currency ≤ after.claims manager currency

/-- A call by somebody else; nobody is address 0. -/
def Outside (call : Call) : Prop := call.env.sender ≠ c.self ∧ call.env.sender ≠ 0

instance (call : Call) : Decidable (Outside c call) := inferInstanceAs (Decidable (_ ∧ _))

/-- What other contracts can do between two points of the ledger's code: move balances that are
not the ledger's, and call the ledger, as deep as `depth` calls inside each other. -/
def Foreign : Nat → State → State → Prop
  | 0 => fun s after => ∃ world, after = s.setWorld world ∧ Spares c s.world world
  | depth + 1 => Relation.ReflTransGen fun s after =>
      (∃ world, after = s.setWorld world ∧ Spares c s.world world) ∨
      ∃ call : Call, Outside c call ∧
        (∀ k middle, Foreign depth middle (call.env.foreign k middle)) ∧
        step c s call = .ok after

/-- The contracts a call reaches do only what other contracts can do. -/
def Honest (env : Env) : Prop := ∃ depth, ∀ k middle, Foreign c depth middle (env.foreign k middle)

/-- A call from outside, whatever the contracts it reaches do while they run. -/
def accepts (s : State) (call : Call) (after : State) : Prop :=
  Outside c call ∧ Honest c call.env ∧ step c s call = .ok after

/-- The system's turns: a call, or balances that move without the ledger. -/
def turn (s : State) : Option Call → State → Prop
  | some call => accepts c s call
  | none => fun after => ∃ world, after = s.setWorld world ∧ Spares c s.world world

end Solonpad.FeeLedger
