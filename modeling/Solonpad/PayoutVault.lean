import Solonpad.Chain

/-!
`RewardPayoutVault.sol`: what trusted sources stage for an account is a debt to it, and one payment
clears the debt in an asset. Sources, the eligibility controller and the tokens are the peers'
answers; every amount that comes or goes is measured by the vault's own balance. What each source
staged (the sums of its `CreditStaged` events) is kept for the proofs.
-/

namespace Solonpad.Payout

open Checked
open Chain (Address)

inductive PayoutError where
  | controller | source | factory | modules | moduleCode | sourceAccount | epochPage | stageDelta
  | assetPage | self | payer | distributor | eligibility | payoutDelta | peer
  deriving DecidableEq, Repr

abbrev Tx (α : Type) := Checked.Tx PayoutError α

structure Store where
  trustedSource : Address → Bool
  readyRaw : Address → Address → Nat
  paidTotal : Address → Address → Nat
  totalLiability : Address → Nat
  distributor : Address
  factory : Address
  deskModule : Address
  stakingModule : Address
  rewardModulesConfigured : Bool
  staged : Address → Address → Address → Nat

def Store.empty : Store where
  trustedSource := fun _ => false
  readyRaw := fun _ _ => 0
  paidTotal := fun _ _ => 0
  totalLiability := fun _ => 0
  distributor := 0
  factory := 0
  deskModule := 0
  stakingModule := 0
  rewardModulesConfigured := false
  staged := fun _ _ _ => 0

structure Config where
  self : Address
  configurator : Address

/-- What the other contracts answer: a source stages an account's epochs and says what it sent, and
a token moves the vault's balance to a receiver. -/
structure Peers (W : Type) where
  hasCode : Address → Bool
  stageCredit : W → Address → Address → List Nat → Address → Tx (W × Nat)
  canReceiveStock : W → Address → Address → Bool
  transfer : W → Address → Address → Nat → Tx W

/-- What a holder has of an asset. -/
abbrev Balance (W : Type) := W → Address → Address → Nat

structure State (W : Type) where
  store : Store
  world : W

/-- `gas i` says whether the allowance of the `i`-th guarded call is enough. -/
structure Env where
  sender : Address
  gas : Nat → Bool

def Store.owe (s : Store) (account asset amount : Nat) : Store :=
  { s with
    readyRaw := Function.update s.readyRaw account (Function.update (s.readyRaw account) asset amount) }

def Store.note (s : Store) (source account asset amount : Nat) : Store :=
  { s with
    staged := Function.update s.staged source (Function.update (s.staged source) account
      (Function.update (s.staged source account) asset (s.staged source account asset + amount))) }

variable {W : Type} (c : Config) (b : Balance W) (x : Peers W)

/-! Wiring. -/

def addSource (s : Store) (source : Address) : Tx Store := do
  require (x.hasCode source = true ∧ s.trustedSource source = false) .source
  pure { s with trustedSource := Function.update s.trustedSource source true }

/-- The constructor's loop. -/
def deploy : List Address → Store → Tx Store
  | [], s => pure s
  | source :: rest, s => do
    let s ← addSource x s source
    deploy rest s

def configureFactory (s : Store) (env : Env) (factory : Address) : Tx Store := do
  require (env.sender = c.configurator ∧ s.factory = 0 ∧ x.hasCode factory = true) .factory
  pure { s with factory := factory }

def registerSource (s : Store) (env : Env) (source : Address) : Tx Store := do
  require ((env.sender = s.factory ∨ env.sender = s.deskModule ∨ env.sender = s.stakingModule) ∧
    env.sender ≠ 0) .source
  addSource x s source

def configureRewardModules (s : Store) (env : Env) (desk staking : Address) : Tx Store := do
  require (env.sender = c.configurator ∧ s.rewardModulesConfigured = false ∧ (desk ≠ 0 ∨ staking ≠ 0))
    .modules
  require ((desk = 0 ∨ x.hasCode desk = true) ∧ (staking = 0 ∨ x.hasCode staking = true)) .moduleCode
  pure { s with rewardModulesConfigured := true, deskModule := desk, stakingModule := staking }

def configureDistributor (s : Store) (env : Env) (distributor : Address) : Tx Store := do
  require (env.sender = c.configurator ∧ s.distributor = 0 ∧ x.hasCode distributor = true) .distributor
  pure { s with distributor := distributor }

/-! Debt. -/

def stageCredit (s : State W) (source account : Address) (epochs : List Nat) (asset : Address) :
    Tx (State W × Nat) := do
  require (s.store.trustedSource source = true ∧ account ≠ 0) .sourceAccount
  require (epochs.length ≤ 20) .epochPage
  let before := b s.world asset c.self
  let (world, amount) ← x.stageCredit s.world source account epochs asset
  require (b world asset c.self = before + amount) .stageDelta
  let store := (s.store.owe account asset (s.store.readyRaw account asset + amount)).note source account
    asset amount
  let liability := store.totalLiability asset + amount
  pure (⟨{ store with
    totalLiability := Function.update store.totalLiability asset liability }, world⟩, amount)

/-- `_pay`. -/
def pay (s : State W) (account asset : Address) : Tx (State W × Nat) :=
  let amount := s.store.readyRaw account asset
  if amount = 0 then pure (s, 0)
  else do
    require (x.canReceiveStock s.world asset account = true) .eligibility
    let before := b s.world asset c.self
    let held := b s.world asset account
    let liability ← sub (s.store.totalLiability asset) amount
    let store := { s.store.owe account asset 0 with
      paidTotal := Function.update s.store.paidTotal account
        (Function.update (s.store.paidTotal account) asset (s.store.paidTotal account asset + amount))
      totalLiability := Function.update s.store.totalLiability asset liability }
    let world ← x.transfer s.world asset account amount
    require (b world asset c.self + amount = before ∧ b world asset account = held + amount) .payoutDelta
    pure (⟨store, world⟩, amount)

def claimFor (s : State W) (sender account asset : Address) : Tx (State W × Nat) := do
  require (sender = account ∨ s.store.trustedSource sender = true ∨ sender = s.store.distributor) .payer
  pay c b x s account asset

/-- The loop of `claim`, with what each asset's attempt paid, none where it was blocked. -/
def claimAssets (gas : Nat → Bool) (account : Address) : Nat → List Address → State W →
    State W × List (Address × Option Nat)
  | _, [], s => (s, [])
  | i, asset :: rest, s =>
    match attempted (gas i) (pay c b x s account asset) with
    | some (next, amount) =>
      let (last, paid) := claimAssets gas account (i + 1) rest next
      (last, (asset, some amount) :: paid)
    | none =>
      let (last, paid) := claimAssets gas account (i + 1) rest s
      (last, (asset, none) :: paid)

def claim (s : State W) (env : Env) (assets : List Address) :
    Tx (State W × List (Address × Option Nat)) := do
  require (assets.length ≤ 4) .assetPage
  pure (claimAssets c b x env.gas env.sender 0 assets s)

/-! The vault. -/

inductive Action where
  | configureFactory (factory : Address)
  | registerSource (source : Address)
  | configureRewardModules (desk staking : Address)
  | configureDistributor (distributor : Address)
  | stageCredit (source account : Address) (epochs : List Nat) (asset : Address)
  | claim (assets : List Address)
  | claimFor (account asset : Address)

/-- A call that touches the vault's own storage only. -/
def State.wired (s : State W) (call : Store → Tx Store) : Tx (State W) := do
  let store ← call s.store
  pure ⟨store, s.world⟩

def step (s : State W) (env : Env) (action : Action) : Tx (State W) :=
  match action with
  | .configureFactory factory => s.wired (configureFactory c x · env factory)
  | .registerSource source => s.wired (registerSource x · env source)
  | .configureRewardModules desk staking => s.wired (configureRewardModules c x · env desk staking)
  | .configureDistributor distributor => s.wired (configureDistributor c x · env distributor)
  | .stageCredit source account epochs asset => do
    let (s, _) ← stageCredit c b x s source account epochs asset
    pure s
  | .claim assets => do
    let (s, _) ← claim c b x s env assets
    pure s
  | .claimFor account asset => do
    let (s, _) ← claimFor c b x s env.sender account asset
    pure s

/-- Nothing but the vault's own payment takes of its stock. -/
structure Spares : Prop where
  stageCredit : ∀ w source account epochs asset after amount other,
    x.stageCredit w source account epochs asset = .ok (after, amount) →
      b w other c.self ≤ b after other c.self
  transfer : ∀ w asset account amount after other,
    x.transfer w asset account amount = .ok after → other ≠ asset →
      b w other c.self ≤ b after other c.self

end Solonpad.Payout
