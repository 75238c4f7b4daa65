import Solonpad.Chain
import Mathlib.Logic.Function.Basic

/-!
`V3QuoteFeeHook.sol`, the fee of a swap, and the pool manager's swap around it. A pool's id and the
receipt of a swap are what the source hashes. A swap is one step: while the hook's receipt stands, the
ledger and what it calls cannot start another. Liquidity, which no fee depends on, is left out. The
pool's own swap is given by its two deltas; what the trader owes is that less what the hook returned.
-/

namespace Solonpad.QuoteFeeHook

open Checked
open Chain (Address)

inductive HookError where
  | notPoolManager | notFactory | alreadyRegistered | invalidPoolKey | unknownPool
  | invalidInitialization | invalidTokenCode | invalidSwap | nestedSwap | invalidReceipt
  | partialFillUnsupported | amountOverflow | callFailed
  deriving DecidableEq, Repr

abbrev Tx (α : Type) := Checked.Tx HookError α

structure PoolKey where
  currency0 : Address
  currency1 : Address
  fee : Nat
  tickSpacing : Int
  hooks : Address
  deriving DecidableEq

structure PoolRegistration where
  token : Address
  quoteAsset : Address
  /-- 0 for the native currency, 1 for a stock. -/
  quoteKind : Nat
  tokenCodeHash : Nat
  strategy : Address
  positionManager : Address
  initialSqrtPriceX96 : Nat
  initialPositionHash : Nat

def PoolRegistration.blank : PoolRegistration := ⟨0, 0, 0, 0, 0, 0, 0, 0⟩

structure SwapParams where
  zeroForOne : Bool
  /-- Negative for an exact input. -/
  amountSpecified : Int
  sqrtPriceLimitX96 : Nat
  deriving DecidableEq

structure BalanceDelta where
  amount0 : Int
  amount1 : Int

/-- What a swap's receipt is the hash of. -/
structure Receipt where
  sender : Address
  key : PoolKey
  params : SwapParams
  deriving DecidableEq

structure State where
  pools : PoolKey → PoolRegistration
  initialized : PoolKey → Bool
  legacyPool : PoolKey → Bool
  /-- Transient. -/
  receipt : Option Receipt
  fee : Nat
  /-- Claims the manager minted to the ledger, by currency. -/
  minted : List (Address × Nat)
  /-- The ledger's credits, by pool. -/
  credited : List (PoolKey × Nat)

structure Config where
  self : Address
  poolManager : Address
  factory : Address

/-- Who calls, the accounts' code, and whether the manager mints and the ledger credits. -/
structure Env where
  sender : Address
  codeLength : Address → Nat
  codehash : Address → Nat
  mints : Bool
  credits : Bool

def deployed : State where
  pools := fun _ => .blank
  initialized := fun _ => false
  legacyPool := fun _ => false
  receipt := none
  fee := 0
  minted := []
  credited := []

def int128Max : Int := 2 ^ 127 - 1

/-- `int128(int256(fee))`: the low 128 bits. -/
def toInt128 (n : Nat) : Int := Int.bmod n (2 ^ 128)

variable (c : Config)

/-! Pools. -/

def registerPool (s : State) (env : Env) (key : PoolKey) (r : PoolRegistration) : Tx State := do
  require (env.sender = c.factory) .notFactory
  require ((s.pools key).token = 0) .alreadyRegistered
  let c0 := key.currency0
  let c1 := key.currency1
  require (¬ (key.hooks ≠ c.self ∨ key.fee ≠ 0 ∨ key.tickSpacing ≠ 100 ∨ c1 ≤ c0 ∨ r.token = 0 ∨
    r.token = r.quoteAsset ∨ ¬ (c0 = r.token ∧ c1 = r.quoteAsset ∨ c1 = r.token ∧ c0 = r.quoteAsset) ∨
    1 < r.quoteKind ∨ ¬ (r.quoteKind = 0 ↔ r.quoteAsset = 0) ∨
    r.quoteKind = 1 ∧ env.codeLength r.quoteAsset = 0 ∨ env.codeLength r.strategy = 0 ∨
    env.codeLength r.positionManager = 0 ∨ r.initialSqrtPriceX96 = 0 ∨ r.initialPositionHash = 0))
    .invalidPoolKey
  require (¬ (env.codeLength r.token = 0 ∨ env.codehash r.token ≠ r.tokenCodeHash)) .invalidTokenCode
  pure { s with pools := Function.update s.pools key r }

def registerLegacyPool (s : State) (env : Env) (key : PoolKey) (r : PoolRegistration) : Tx State := do
  require (r.quoteKind = 1) .invalidPoolKey
  let s ← registerPool c s env key r
  pure { s with legacyPool := Function.update s.legacyPool key true }

/-- `_pool`. -/
def pool (s : State) (env : Env) (key : PoolKey) : Tx PoolRegistration := do
  let r := s.pools key
  require (r.token ≠ 0) .unknownPool
  require (¬ (env.codeLength r.token = 0 ∨ env.codehash r.token ≠ r.tokenCodeHash)) .invalidTokenCode
  pure r

def beforeInitialize (s : State) (env : Env) (sender : Address) (key : PoolKey) (price : Nat) : Tx State := do
  require (env.sender = c.poolManager) .notPoolManager
  let r ← pool s env key
  require (¬ (s.initialized key = true ∨ sender ≠ r.strategy ∨ price ≠ r.initialSqrtPriceX96))
    .invalidInitialization
  pure { s with initialized := Function.update s.initialized key true }

/-! The fee. -/

/-- `_mintFee`. -/
def mintFee (s : State) (env : Env) (quote : Address) (fee : Nat) : Tx State := do
  require (env.mints = true) .callFailed
  pure { s with minted := s.minted ++ [(quote, fee)] }

/-- `_credit`. -/
def credit (s : State) (env : Env) (key : PoolKey) (fee : Nat) : Tx State := do
  require (env.credits = true) .callFailed
  pure { s with credited := s.credited ++ [(key, fee)] }

/-- The trader gives the quote asset. -/
def buys (key : PoolKey) (r : PoolRegistration) (params : SwapParams) : Bool :=
  params.zeroForOne == decide (key.currency0 = r.quoteAsset)

/-- `_beforeSwap`, with the delta of the specified currency. -/
def beforeSwap (s : State) (env : Env) (sender : Address) (key : PoolKey) (params : SwapParams)
    (hookData : List UInt8) : Tx (State × Int) := do
  require (env.sender = c.poolManager) .notPoolManager
  require (s.receipt = none) .nestedSwap
  let r ← pool s env key
  require (¬ (s.initialized key = false ∨ hookData ≠ [] ∨ params.amountSpecified = 0)) .invalidSwap
  require (¬ (int128Max < params.amountSpecified ∨ params.amountSpecified < -int128Max)) .amountOverflow
  let buy := buys key r params
  let exactIn := decide (params.amountSpecified < 0)
  let amount := (if exactIn then -params.amountSpecified else params.amountSpecified).toNat
  let fee := if buy = exactIn then (if exactIn then (amount + 99) / 100 else (amount + 98) / 99) else 0
  require (¬ (exactIn = true ∧ amount ≤ fee)) .invalidSwap
  require (¬ (exactIn = false ∧ int128Max < (amount + fee : Nat))) .amountOverflow
  let s := { s with receipt := some ⟨sender, key, params⟩, fee := fee }
  let s ← (if fee ≠ 0 then mintFee s env r.quoteAsset fee else pure s : Tx State)
  pure (s, toInt128 fee)

/-- `_afterSwap`, with the delta of the other currency. -/
def afterSwap (s : State) (env : Env) (sender : Address) (key : PoolKey) (params : SwapParams)
    (delta : BalanceDelta) (hookData : List UInt8) : Tx (State × Int) := do
  require (env.sender = c.poolManager) .notPoolManager
  require (s.receipt = some ⟨sender, key, params⟩ ∧ hookData = []) .invalidReceipt
  let r ← pool s env key
  let fee := s.fee
  let exactIn := decide (params.amountSpecified < 0)
  let coreSpecified := if exactIn = params.zeroForOne then delta.amount0 else delta.amount1
  require (coreSpecified = params.amountSpecified + fee) .partialFillUnsupported
  let q := if key.currency0 = r.quoteAsset then delta.amount0 else delta.amount1
  let m := if key.currency0 = r.quoteAsset then delta.amount1 else delta.amount0
  let buy := buys key r params
  require (¬ (if buy then 0 ≤ q ∨ m ≤ 0 else q ≤ 0 ∨ 0 ≤ m)) .invalidSwap
  let (s, fee, afterFee) ← (if fee = 0 then do
      let quoteAmount := (if buy then -q else q).toNat
      let fee := if buy then (quoteAmount + 98) / 99 else (quoteAmount + 99) / 100
      require (¬ (buy = false ∧ quoteAmount ≤ fee)) .invalidSwap
      require (¬ (buy = true ∧ int128Max < (quoteAmount + fee : Nat))) .amountOverflow
      let s ← mintFee s env r.quoteAsset fee
      pure (s, fee, toInt128 fee)
    else pure (s, fee, 0) : Tx (State × Nat × Int))
  let s ← credit s env key fee
  pure ({ s with fee := 0, receipt := none }, afterFee)

/-! The manager's swap. -/

/-- What the hook's two deltas are worth by currency. -/
def hookDelta (params : SwapParams) (specified unspecified : Int) : BalanceDelta :=
  if decide (params.amountSpecified < 0) = params.zeroForOne then ⟨specified, unspecified⟩
  else ⟨unspecified, specified⟩

structure Swapped where
  state : State
  /-- The hook's delta before the swap and after it. -/
  specified : Int
  unspecified : Int
  /-- What the trader gets (or owes, where negative). -/
  trader : BalanceDelta

def swap (s : State) (env : Env) (sender : Address) (key : PoolKey) (params : SwapParams)
    (hookData : List UInt8) (core : BalanceDelta) : Tx Swapped := do
  let (s, specified) ← beforeSwap c s env sender key params hookData
  let (s, unspecified) ← afterSwap c s env sender key params core hookData
  let taken := hookDelta params specified unspecified
  pure ⟨s, specified, unspecified, ⟨core.amount0 - taken.amount0, core.amount1 - taken.amount1⟩⟩

/-! The system. -/

inductive Action where
  | registerPool (key : PoolKey) (r : PoolRegistration)
  | registerLegacyPool (key : PoolKey) (r : PoolRegistration)
  | beforeInitialize (sender : Address) (key : PoolKey) (price : Nat)
  | swap (sender : Address) (key : PoolKey) (params : SwapParams) (hookData : List UInt8)
      (core : BalanceDelta)

structure Call where
  env : Env
  action : Action

def step (s : State) (call : Call) : Tx State :=
  match call.action with
  | .registerPool key r => registerPool c s call.env key r
  | .registerLegacyPool key r => registerLegacyPool c s call.env key r
  | .beforeInitialize sender key price => beforeInitialize c s call.env sender key price
  | .swap sender key params hookData core => do
    let done ← swap c s call.env sender key params hookData core
    pure done.state

def accepts (s : State) (call : Call) (after : State) : Prop := step c s call = .ok after

end Solonpad.QuoteFeeHook
