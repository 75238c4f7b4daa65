import Solonpad.Eligibility
import Solonpad.Checkpoints
import Solonpad.CarryStream
import Mathlib

/-!
`V3RewardToken.sol`: a fixed supply whose holders earn the fees of its pool. A fee, or what the
carry released, moves an index by its amount over the weight that counts then; an account's credit
is read lazily from its own checkpoints and the index history. Timestamps and generations fit
their packed fields; a weight is cast to its own. What leaves the token (the ledger's claim, an
asset transfer, the manager's funding) is settled by the environment: a payment either succeeds
with exact deltas or the call reverts. `credits` is kept for the proofs: the distributions so far,
newest first, each with every account's weight at that event.
-/

namespace Solonpad.RewardToken

open Checked Checkpoints CarryStream DyadicTree Eligibility
open Chain (Address Token)

inductive TokenError where
  | unauthorized | invalidConfiguration | pageTooLarge | clockOverflow | scheduleConfiguration
  | emptySchedule | scheduleAsset | basketFrozen | unboundEligibilityAsset | roundConfiguration
  | epochPolicy | roundManager | sealState | roundInterval | emptyBudget | ledgerClaim
  | roundFunding | futureExpiry | assetPolicyMissing | divisionByZero | epochPage
  | claimThroughRewardVault | deliverThroughRewardVault | stageDelta | ineligibleDelivery
  | payoutDelta | deliveryDelta | erc20
  deriving DecidableEq, Repr

abbrev Tx (α : Type) := Checked.Tx TokenError α

def supply : Nat := 10 ^ 27
def precision : Nat := 10 ^ 27

structure PurchasePolicy where
  assetId : Nat
  version : Nat
  pricePolicy : Nat

/-- `RewardAssetSchedule.sol`: an immutable rotation of assets. -/
structure Schedule where
  policies : List (Address × PurchasePolicy)
  startEpoch : Nat
  intervalDays : Nat

def Schedule.rotationIndex (r : Schedule) (epoch : Nat) : Nat :=
  if epoch < r.startEpoch then 0 else (epoch - r.startEpoch) / r.intervalDays % r.policies.length

def Schedule.resolve (r : Schedule) (epoch : Nat) : Tx (Address × PurchasePolicy) :=
  match r.policies[r.rotationIndex epoch]? with
  | some policy => pure policy
  | none => throw .bounds

def Schedule.nextRoundAt (r : Schedule) (epoch : Nat) : Nat :=
  if epoch < r.startEpoch then r.startEpoch * day
  else (r.startEpoch + ((epoch - r.startEpoch) / r.intervalDays + 1) * r.intervalDays) * day

structure IndexPoint where
  time : Nat
  index : Nat
  carryIndex : Nat
  sequence : Nat

structure AccountPoint where
  time : Nat
  validUntil : Nat
  generation : Nat
  weight : Nat
  index : Nat
  earned27 : Nat

/-- One distribution: what it moved the index by, and the weights that counted. -/
structure Credited where
  time : Nat
  epoch : Nat
  amount : Nat
  fromCarry : Bool
  delta : Nat
  denominator : Nat
  weight : Address → Nat

/-- What the configurator and governance set. -/
structure Setup where
  eligibilityController : Bool
  configured : Bool
  assetSchedule : Option Schedule
  requiredAssetMask : Nat
  rewardBasket : List Address
  inRewardBasket : Address → Bool
  roundsManager : Address
  defaultPurchasePolicy : PurchasePolicy
  epochPurchasePolicy : Nat → PurchasePolicy
  payout : Address
  poolId : Nat
  quote : Address
  settlementKind : Nat
  defaultRewardAsset : Address

/-- What was sealed, delivered, staged and paid out. -/
structure Payouts where
  rewardSealed : Nat → Bool
  creditedToPayout : Nat → Address → Nat
  paidTotal : Address → Nat
  stagedTotal : Address → Nat
  cumulativeDelivered : Nat → Nat
  deliveredTotal : Address → Nat
  expiryIndex : Nat → Nat
  expiryCarryIndex : Nat → Nat
  expiryCheckpointed : Nat → Bool

structure State where
  setup : Setup
  payouts : Payouts
  token : Token
  participants : List (Address × Nat)
  modeGeneration : Nat
  accountGeneration : Address → Nat
  accountExpiry : Address → Nat
  expiryWeights : Tree
  eligible : Address → Nat
  totalEligible : Nat
  accountHistory : Address → List AccountPoint
  rewardPerEligibleToken : Nat
  carryPerEligibleToken : Nat
  indexRemainder : Nat
  carryIndexRemainder : Nat
  lastDenominator : Nat
  indexEpoch : Nat
  indexHistory : List IndexPoint
  sequence : Nat
  carry : Stream
  epochAsset : Nat → Address
  epochBudget : Nat → Nat
  epochDust27 : Nat → Nat
  totalCredited : Nat
  lastFeeAt : Nat
  credits : List Credited

structure Config where
  self : Address
  strategy : Address
  ledger : Address
  configurator : Address
  listed : Address → Bool

def Config.excluded (c : Config) (account : Address) : Bool :=
  account == c.self || account == c.strategy || account == c.ledger || account == 0xdead ||
    c.listed account

/-- What surrounds one call: who calls when, what the registry answers, whether money moves. -/
structure Env where
  sender : Address
  now : Nat
  hasCode : Address → Bool
  registry : Registry
  balance : Address → Nat
  ledgerPays : Nat → Bool
  transfers : Address → Nat → Bool

/-! Reading the histories. -/

def State.indexBefore (s : State) (t : Nat) : Nat :=
  match before IndexPoint.time s.indexHistory t with
  | some point => point.index
  | none => 0

def State.carryBefore (s : State) (t : Nat) : Nat :=
  match before IndexPoint.time s.indexHistory t with
  | some point => point.carryIndex
  | none => 0

/-- `_enabled` and the start of mode A: `cut` is that start, once it has passed. -/
def State.cutoff (s : State) (k : Controller) (now : Nat) : Option Nat :=
  if s.setup.eligibilityController = true then k.cutoff now else none

/-- Where a point stops earning before `t`. -/
def AccountPoint.stop (p : AccountPoint) (cut : Option Nat) (t : Nat) : Nat :=
  let capped := match cut with
    | some start => if p.generation = 0 then min t start else t
    | none => t
  if p.generation = 1 ∧ p.validUntil ≠ 0 then min capped p.validUntil else capped

def State.pointIndex (s : State) (cut : Option Nat) (p : AccountPoint) (t : Nat)
    (inclusiveNow : Bool) : Nat :=
  let result :=
    if inclusiveNow = true ∧ p.stop cut t = t ∧
        (if p.generation = 0 then cut = none else t < p.validUntil) then s.rewardPerEligibleToken
    else s.indexBefore (p.stop cut t)
  max result p.index

def State.earnedBefore (s : State) (cut : Option Nat) (account : Address) (t : Nat) : Tx Nat :=
  match before AccountPoint.time (s.accountHistory account) t with
  | none => pure 0
  | some p => do
    let grown ← Checked.sub (s.pointIndex cut p t false) p.index
    pure (p.earned27 + p.weight * grown)

def State.epochCredit27 (s : State) (cut : Option Nat) (account : Address) (epoch : Nat) : Tx Nat := do
  let upper ← s.earnedBefore cut account ((epoch + 1) * day)
  let lower ← s.earnedBefore cut account (epoch * day)
  Checked.sub upper lower

def State.effectiveEligible (s : State) (cut : Option Nat) (now : Nat) : Nat :=
  if cut.isSome = true then suffixSum 32 s.expiryWeights now else s.totalEligible

/-- The part of an account's weight that counts at a time. -/
def State.effectiveWeight (s : State) (cut : Option Nat) (now : Nat) (account : Address) : Nat :=
  if cut.isSome = true then
    if s.accountGeneration account = 1 ∧ now < s.accountExpiry account then s.eligible account else 0
  else s.eligible account

/-! Index and carry. -/

def State.freezeRemainders (s : State) : State :=
  { s with
    epochDust27 := Function.update s.epochDust27 s.indexEpoch
      (s.epochDust27 s.indexEpoch + (s.indexRemainder + s.carryIndexRemainder))
    indexRemainder := 0
    carryIndexRemainder := 0 }

def syncMode (s : State) (cut : Option Nat) (now : Nat) : Tx State :=
  if cut.isSome = true ∧ s.modeGeneration = 0 then do
    let (carry, _) ← checkpoint .clockOverflow s.carry false now
    pure { { s with carry := carry }.freezeRemainders with totalEligible := 0, modeGeneration := 1 }
  else pure s

def scheduledAsset (s : State) (epoch : Nat) : Tx Address :=
  match s.setup.assetSchedule with
  | none => pure s.setup.defaultRewardAsset
  | some schedule => do
    let policy ← schedule.resolve epoch
    pure policy.1

def stampAsset (s : State) (epoch : Nat) : Tx State :=
  if s.epochAsset epoch = 0 then do
    let asset ← if s.setup.settlementKind = 1 then pure s.setup.quote else scheduledAsset s epoch
    require (asset ≠ 0) .assetPolicyMissing
    pure { s with epochAsset := Function.update s.epochAsset epoch asset }
  else pure s

/-- The index step of `_distribute`, once the epoch and the denominator are current. -/
def credit (s : State) (cut : Option Nat) (now denominator amount : Nat) (fromCarry : Bool) : State :=
  let epoch := now / day
  let numerator := amount * precision + if fromCarry then s.carryIndexRemainder else s.indexRemainder
  let delta := numerator / denominator
  let index := s.rewardPerEligibleToken + delta
  let carryIndex := if fromCarry then s.carryPerEligibleToken + delta else s.carryPerEligibleToken
  { s with
    rewardPerEligibleToken := index
    carryPerEligibleToken := carryIndex
    carryIndexRemainder := if fromCarry then numerator % denominator else s.carryIndexRemainder
    indexRemainder := if fromCarry then s.indexRemainder else numerator % denominator
    epochBudget := Function.update s.epochBudget epoch (s.epochBudget epoch + amount)
    sequence := s.sequence + 1
    indexHistory := record IndexPoint.time s.indexHistory ⟨now, index, carryIndex, s.sequence + 1⟩
    credits := ⟨now, epoch, amount, fromCarry, delta, denominator, s.effectiveWeight cut now⟩ ::
      s.credits }

/-- Remainders of another denominator or epoch are dust. -/
def prepare (s : State) (denominator epoch : Nat) : State :=
  let s := if denominator ≠ s.lastDenominator then
    { s.freezeRemainders with lastDenominator := denominator } else s
  if s.indexEpoch ≠ epoch then { s.freezeRemainders with indexEpoch := epoch } else s

def distribute (s : State) (cut : Option Nat) (now amount : Nat) (fromCarry : Bool) : Tx State := do
  let denominator := s.effectiveEligible cut now
  let s ← stampAsset (prepare s denominator (now / day)) (now / day)
  require (denominator ≠ 0) .divisionByZero
  pure (credit s cut now denominator amount fromCarry)

def releaseCarry (s : State) (cut : Option Nat) (now : Nat) : Tx State := do
  let s ← syncMode s cut now
  let (carry, unlocked) ← checkpoint .clockOverflow s.carry (decide (s.effectiveEligible cut now ≠ 0)) now
  let s := { s with carry := carry }
  if unlocked ≠ 0 then distribute s cut now unlocked true else pure s

def onFeeCredit (c : Config) (s : State) (cut : Option Nat) (env : Env) (pool : Nat) (quote : Address)
    (kind amount : Nat) : Tx State := do
  require (env.sender = c.ledger) .unauthorized
  require (s.setup.configured = true ∧ pool = s.setup.poolId ∧ quote = s.setup.quote ∧
    kind = s.setup.settlementKind) .invalidConfiguration
  let s ← syncMode s cut env.now
  let s ← if s.effectiveEligible cut env.now = 0 then
      pure { s with carry := deposit s.carry amount }
    else do
      let s ← releaseCarry s cut env.now
      distribute s cut env.now amount false
  pure { s with
    totalCredited := s.totalCredited + amount
    lastFeeAt := if amount ≠ 0 then env.now else s.lastFeeAt }

/-! Weights. -/

/-- What an account earned up to this call. -/
def State.earnedNow (s : State) (cut : Option Nat) (now : Nat) (account : Address) : Tx Nat :=
  match (s.accountHistory account).getLast? with
  | none => pure 0
  | some last => do
    let grown ← Checked.sub (s.pointIndex cut last now true) last.index
    pure (last.earned27 + last.weight * grown)

def save (s : State) (cut : Option Nat) (now : Nat) (account : Address) : Tx State := do
  let earned27 ← s.earnedNow cut now account
  let point : AccountPoint := ⟨now, s.accountExpiry account, s.accountGeneration account,
    s.eligible account % 2 ^ 128, s.rewardPerEligibleToken, earned27⟩
  pure { s with
    accountHistory := Function.update s.accountHistory account
      (record AccountPoint.time (s.accountHistory account) point) }

/-- An account's weight leaves the expiry tree and the total. -/
def retire (s : State) (account : Address) (amount : Nat) : Tx State := do
  let tree ← DyadicTree.sub 32 s.expiryWeights (s.accountExpiry account) amount
  let total ← Checked.sub s.totalEligible amount
  pure { s with expiryWeights := tree, totalEligible := total }

def syncAccount (s : State) (cut : Option Nat) (now : Nat) (account : Address) : Tx State :=
  let migrated := s.accountGeneration account ≠ s.modeGeneration
  let amount := s.eligible account
  if migrated ∨ s.modeGeneration = 1 ∧ amount ≠ 0 ∧ s.accountExpiry account ≤ now then do
    let s ← if ¬ migrated ∧ amount ≠ 0 then retire s account amount else pure s
    let s := { s with
      eligible := Function.update s.eligible account 0
      accountGeneration := Function.update s.accountGeneration account s.modeGeneration
      accountExpiry := Function.update s.accountExpiry account 0 }
    if s.accountHistory account ≠ [] then save s cut now account else pure s
  else pure s

def deliveryAllowed (s : State) (k : Controller) (env : Env) (account asset : Address) : Prop :=
  s.setup.eligibilityController = false ∨ k.canReceiveStock env.registry env.now asset account

instance (s : State) (k : Controller) (env : Env) (account asset : Address) :
    Decidable (deliveryAllowed s k env account asset) := inferInstanceAs (Decidable (_ ∨ _))

/-- Whether an account may start earning, and since mode A until when. -/
def qualify (c : Config) (s : State) (k : Controller) (env : Env) (account : Address) : Bool × State :=
  if c.excluded account = true then (false, s)
  else if s.setup.eligibilityController = false then (true, s)
  else if k.systemVaultMask account ≠ 0 then (false, s)
  else if s.modeGeneration = 0 then (true, s)
  else
    let credential := env.registry.credentials account
    let asset := if s.setup.settlementKind = 1 then s.setup.quote else s.setup.defaultRewardAsset
    if ¬ deliveryAllowed s k env account asset ∨
        credential.assetMask &&& s.setup.requiredAssetMask ≠ s.setup.requiredAssetMask then (false, s)
    else if env.registry.bindable account = false then (false, s)
    else (true, { s with
      accountExpiry := Function.update s.accountExpiry account credential.validUntil.toNat })

/-- The tree after an account's weight went from `previous` to `next`. -/
def reweighTree (s : State) (account : Address) (previous next : Nat) : Tx Tree := do
  let expiry := s.accountExpiry account
  let tree ← if previous ≠ 0 then DyadicTree.sub 32 s.expiryWeights expiry previous
    else pure s.expiryWeights
  pure (if next ≠ 0 then DyadicTree.add 32 tree expiry next else tree)

def setWeight (s : State) (cut : Option Nat) (now : Nat) (account : Address) (next : Nat) :
    Tx State := do
  let previous := s.eligible account
  let s := s.freezeRemainders
  let total ← Checked.sub (s.totalEligible + next) previous
  let tree ← if s.modeGeneration = 1 then reweighTree s account previous next else pure s.expiryWeights
  let s := { s with
    eligible := Function.update s.eligible account next
    totalEligible := total
    expiryWeights := tree
    participants := if s.accountHistory account = [] then s.participants ++ [(account, now)]
      else s.participants }
  save s cut now account

def reweigh (c : Config) (s : State) (k : Controller) (cut : Option Nat) (env : Env)
    (account : Address) (newBalance : Nat) : Tx State := do
  let s ← syncAccount s cut env.now account
  let previous := s.eligible account
  let (earns, s) := if newBalance = 0 then (false, s)
    else if previous ≠ 0 then (true, s) else qualify c s k env account
  let next := if earns then newBalance else 0
  if next = previous then pure s else setWeight s cut env.now account next

def moveBalance (s : State) (sender receiver : Address) (amount : Nat) : Tx State :=
  match s.token.transfer sender receiver amount with
  | .ok token => pure { s with token := token }
  | .error _ => throw (.revert .erc20)

/-- `_update`. -/
def update (c : Config) (s : State) (k : Controller) (cut : Option Nat) (env : Env)
    (sender receiver : Address) (amount : Nat) : Tx State :=
  if sender = receiver ∨ amount = 0 then moveBalance s sender receiver amount
  else do
    let s ← releaseCarry s cut env.now
    let s ← moveBalance s sender receiver amount
    let s ← if c.excluded sender = false then
      reweigh c s k cut env sender (s.token.balanceOf sender) else pure s
    if c.excluded receiver = false then reweigh c s k cut env receiver (s.token.balanceOf receiver)
    else pure s

def syncEligibility (c : Config) (s : State) (k : Controller) (cut : Option Nat) (env : Env)
    (account : Address) : Tx State := do
  let s ← releaseCarry s cut env.now
  reweigh c s k cut env account (s.token.balanceOf account)

def onEligibilityChange (s : State) (k : Controller) (cut : Option Nat) (env : Env)
    (account : Address) : Tx State := do
  require (s.setup.eligibilityController = true ∧ env.sender = k.registry) .unauthorized
  let s ← releaseCarry s cut env.now
  let s ← syncAccount s cut env.now account
  let amount := s.eligible account
  if amount ≠ 0 then do
    let s ← retire s.freezeRemainders account amount
    save { s with eligible := Function.update s.eligible account 0 } cut env.now account
  else pure s

def checkpointExpiry (s : State) (env : Env) (time : Nat) : Tx State := do
  require (time ≤ env.now) .futureExpiry
  if s.payouts.expiryCheckpointed time = false then do
    let ordinary ← Checked.sub (s.indexBefore time) (s.carryBefore time)
    let payouts := { s.payouts with
      expiryIndex := Function.update s.payouts.expiryIndex time ordinary
      expiryCarryIndex := Function.update s.payouts.expiryCarryIndex time (s.carryBefore time)
      expiryCheckpointed := Function.update s.payouts.expiryCheckpointed time true }
    pure { s with payouts := payouts }
  else pure s

/-! Payouts. -/

def owed (s : State) (cut : Option Nat) (account : Address) (epoch : Nat) : Tx Nat := do
  let credit ← s.epochCredit27 cut account epoch
  pure (if s.setup.settlementKind = 1 then credit / precision
    else if s.epochBudget epoch = 0 then 0
    else credit * s.payouts.cumulativeDelivered epoch / (s.epochBudget epoch * precision))

/-- The loop over epochs of `stageCredit` and `claim`: each epoch's growth is credited once. -/
def collect (s : State) (cut : Option Nat) (account asset : Address) :
    List Nat → Payouts → Nat → Tx (Payouts × Nat)
  | [], p, payment => pure (p, payment)
  | epoch :: rest, p, payment =>
    if s.epochAsset epoch ≠ asset then collect s cut account asset rest p payment
    else do
      let owed ← owed s cut account epoch
      let growth ← Checked.sub owed (p.creditedToPayout epoch account)
      let credited := Function.update (p.creditedToPayout epoch) account owed
      collect s cut account asset rest
        { p with creditedToPayout := Function.update p.creditedToPayout epoch credited }
        (payment + growth)

/-- A payment of stock the token holds or claims from its ledger first. -/
def pays (s : State) (env : Env) (asset : Address) (payment : Nat) : Prop :=
  (s.setup.settlementKind = 1 → env.balance asset < payment →
    env.ledgerPays (payment - env.balance asset) = true) ∧ env.transfers asset payment = true

instance (s : State) (env : Env) (asset : Address) (payment : Nat) : Decidable (pays s env asset payment) :=
  inferInstanceAs (Decidable (_ ∧ _))

def stageCredit (s : State) (cut : Option Nat) (env : Env) (account : Address) (epochs : List Nat)
    (asset : Address) : Tx State := do
  require (env.sender = s.setup.payout ∧ s.setup.payout ≠ 0) .unauthorized
  require (epochs.length ≤ 20) .epochPage
  require (s.setup.roundsManager = 0 ∨ s.setup.settlementKind = 1) .claimThroughRewardVault
  let s ← releaseCarry s cut env.now
  let (payouts, payment) ← collect s cut account asset epochs s.payouts 0
  if payment ≠ 0 then do
    require (pays s env asset payment) .stageDelta
    let staged := Function.update payouts.stagedTotal asset (payouts.stagedTotal asset + payment)
    pure { s with payouts := { payouts with stagedTotal := staged } }
  else pure { s with payouts := payouts }

def claimAssets (k : Controller) (cut : Option Nat) (env : Env) (epochs : List Nat) :
    List Address → State → Tx State
  | [], s => pure s
  | asset :: rest, s => do
    require (deliveryAllowed s k env env.sender asset) .ineligibleDelivery
    let (payouts, payment) ← collect s cut env.sender asset epochs s.payouts 0
    if payment ≠ 0 then do
      require (pays s env asset payment) .payoutDelta
      let paid := Function.update payouts.paidTotal asset (payouts.paidTotal asset + payment)
      claimAssets k cut env epochs rest { s with payouts := { payouts with paidTotal := paid } }
    else claimAssets k cut env epochs rest { s with payouts := payouts }

/-- With a payout contract the claim is that contract's own calls of `stageCredit`. -/
def claim (s : State) (k : Controller) (cut : Option Nat) (env : Env) (epochs : List Nat)
    (assets : List Address) : Tx State := do
  require (s.setup.roundsManager = 0 ∨ s.setup.settlementKind = 1) .claimThroughRewardVault
  let s ← releaseCarry s cut env.now
  require (epochs.length ≤ 20 ∧ assets.length ≤ 4) .pageTooLarge
  if s.setup.payout ≠ 0 then pure s else claimAssets k cut env epochs assets s

def deliver (c : Config) (s : State) (env : Env) (epoch : Nat) (asset : Address) (amount : Nat) :
    Tx State := do
  require (s.setup.roundsManager = 0) .deliverThroughRewardVault
  require (env.sender = c.configurator) .unauthorized
  require (s.setup.settlementKind = 0 ∧ epoch < env.now / day ∧ s.epochBudget epoch ≠ 0 ∧
    s.epochAsset epoch = asset ∧ amount ≠ 0) .invalidConfiguration
  require (env.transfers asset amount = true) .deliveryDelta
  let payouts := { s.payouts with
    cumulativeDelivered := Function.update s.payouts.cumulativeDelivered epoch
      (s.payouts.cumulativeDelivered epoch + amount)
    deliveredTotal := Function.update s.payouts.deliveredTotal asset
      (s.payouts.deliveredTotal asset + amount) }
  pure { s with payouts := payouts }

def nextRoundAt (s : State) (epoch : Nat) : Nat :=
  match s.setup.assetSchedule with
  | none => (epoch + 1) * day
  | some schedule => schedule.nextRoundAt epoch

/-- Answers the budget, its credit total and the kind. -/
def sealReward (s : State) (env : Env) (epoch cohort : Nat) : Tx (State × Nat × Nat × Nat) := do
  require (env.sender = s.setup.roundsManager ∧ s.setup.roundsManager ≠ 0) .roundManager
  require (s.setup.settlementKind = 0 ∧ cohort = 0 ∧ epoch < env.now / day ∧
    s.payouts.rewardSealed epoch = false) .sealState
  require (nextRoundAt s epoch ≤ env.now) .roundInterval
  let budget18 := s.epochBudget epoch
  require (budget18 ≠ 0) .emptyBudget
  require (env.balance 0 < budget18 → env.ledgerPays (budget18 - env.balance 0) = true) .ledgerClaim
  require (env.transfers 0 budget18 = true) .roundFunding
  let sealed := Function.update s.payouts.rewardSealed epoch true
  pure ({ s with payouts := { s.payouts with rewardSealed := sealed } },
    budget18, budget18 * precision, 0)

/-! Setup. -/

def includeRewardAsset (s : State) (k : Controller) (asset : Address) : Tx State :=
  if s.setup.inRewardBasket asset = true then pure s
  else do
    require (s.setup.eligibilityController = true → s.participants = [] ∧ s.totalCredited = 0)
      .basketFrozen
    let setup := { s.setup with
      inRewardBasket := Function.update s.setup.inRewardBasket asset true
      rewardBasket := s.setup.rewardBasket ++ [asset] }
    if setup.eligibilityController = true then do
      require (k.assetIds asset ≠ 0) .unboundEligibilityAsset
      let mask := setup.requiredAssetMask ||| (1 <<< (k.assetIds asset - 1))
      pure { s with setup := { setup with requiredAssetMask := mask } }
    else pure { s with setup := setup }

def includeAll (k : Controller) (env : Env) (self : Address) : List (Address × PurchasePolicy) →
    State → Tx State
  | [], s => pure s
  | (asset, _) :: rest, s => do
    require (asset ≠ self ∧ env.hasCode asset = true) .scheduleAsset
    let s ← includeRewardAsset s k asset
    includeAll k env self rest s

def configureAssetSchedule (c : Config) (s : State) (k : Controller) (env : Env) (schedule : Schedule) :
    Tx State := do
  require (env.sender = c.configurator) .unauthorized
  require (s.setup.assetSchedule.isNone = true ∧ s.setup.roundsManager ≠ 0 ∧ s.participants = [] ∧
    s.totalCredited = 0) .scheduleConfiguration
  require (schedule.policies ≠ []) .emptySchedule
  includeAll k env c.self schedule.policies
    { s with setup := { s.setup with assetSchedule := some schedule } }

def configureRounds (c : Config) (s : State) (env : Env) (manager : Address) (policy : PurchasePolicy) :
    Tx State := do
  require (env.sender = c.configurator) .unauthorized
  require (s.setup.roundsManager = 0 ∧ env.hasCode manager = true ∧ s.totalCredited = 0 ∧
    s.setup.settlementKind = 0 ∧ policy.assetId ≠ 0 ∧ policy.version ≠ 0 ∧ policy.pricePolicy ≠ 0)
    .roundConfiguration
  pure { s with setup := { s.setup with roundsManager := manager, defaultPurchasePolicy := policy } }

def declareEpochRewardPolicy (c : Config) (s : State) (k : Controller) (env : Env) (epoch : Nat)
    (asset : Address) (policy : PurchasePolicy) : Tx State := do
  require (env.sender = c.configurator) .unauthorized
  require (s.setup.roundsManager ≠ 0 ∧ env.now / day ≤ epoch ∧ s.epochBudget epoch = 0 ∧
    s.epochAsset epoch = 0 ∧ env.hasCode asset = true ∧ asset ≠ c.self ∧ policy.assetId ≠ 0 ∧
    policy.version ≠ 0 ∧ policy.pricePolicy ≠ 0) .epochPolicy
  let s ← includeRewardAsset s k asset
  let policies := Function.update s.setup.epochPurchasePolicy epoch policy
  pure { s with
    epochAsset := Function.update s.epochAsset epoch asset
    setup := { s.setup with epochPurchasePolicy := policies } }

def configurePayout (c : Config) (s : State) (env : Env) (payout : Address) : Tx State := do
  require (env.sender = c.configurator) .unauthorized
  require (s.setup.payout = 0 ∧ env.hasCode payout = true ∧ s.totalCredited = 0) .invalidConfiguration
  pure { s with setup := { s.setup with payout := payout } }

/-- `_addAssetMask` over the basket so far. -/
def basketMask (k : Controller) : List Address → Nat → Tx Nat
  | [], mask => pure mask
  | asset :: rest, mask => do
    require (k.assetIds asset ≠ 0) .unboundEligibilityAsset
    basketMask k rest (mask ||| (1 <<< (k.assetIds asset - 1)))

def configureEligibility (c : Config) (s : State) (k : Controller) (env : Env) : Tx State := do
  require (env.sender = c.configurator) .unauthorized
  require (s.setup.eligibilityController = false ∧ s.totalCredited = 0) .invalidConfiguration
  let mask ← basketMask k s.setup.rewardBasket s.setup.requiredAssetMask
  pure { s with setup := { s.setup with eligibilityController := true, requiredAssetMask := mask } }

def configurePool (c : Config) (s : State) (k : Controller) (env : Env) (pool : Nat) (quote : Address)
    (kind : Nat) : Tx State := do
  require (env.sender = c.configurator) .unauthorized
  require (¬ (s.setup.configured = true ∨ kind = 0 ∧ quote ≠ 0 ∨ kind = 1 ∧ env.hasCode quote = false ∨
    quote = c.self ∨ 1 < kind ∨ kind = 0 ∧ s.setup.defaultRewardAsset = 0)) .invalidConfiguration
  includeRewardAsset { s with
      setup := { s.setup with
        configured := true, poolId := pool, quote := quote, settlementKind := kind } } k
    (if kind = 1 then quote else s.setup.defaultRewardAsset)

def setDefaultRewardAsset (c : Config) (s : State) (env : Env) (asset : Address) : Tx State := do
  require (env.sender = c.configurator) .unauthorized
  require (s.setup.defaultRewardAsset = 0 ∧ env.hasCode asset = true ∧ asset ≠ c.self ∧
    s.totalCredited = 0) .invalidConfiguration
  pure { s with setup := { s.setup with defaultRewardAsset := asset } }

def declareEpochAsset (c : Config) (s : State) (k : Controller) (env : Env) (epoch : Nat)
    (asset : Address) : Tx State := do
  require (s.setup.roundsManager = 0) .epochPolicy
  require (env.sender = c.configurator) .unauthorized
  require (env.now / day ≤ epoch ∧ s.epochBudget epoch = 0 ∧ s.epochAsset epoch = 0 ∧
    env.hasCode asset = true ∧ asset ≠ c.self ∧ s.setup.settlementKind ≠ 1) .invalidConfiguration
  let s ← includeRewardAsset s k asset
  pure { s with epochAsset := Function.update s.epochAsset epoch asset }

/-! The token with its controller, in time. -/

inductive Call where
  | configureAssetSchedule (schedule : Schedule)
  | configureRounds (manager : Address) (policy : PurchasePolicy)
  | declareEpochRewardPolicy (epoch : Nat) (asset : Address) (policy : PurchasePolicy)
  | configurePayout (payout : Address)
  | configureEligibility
  | configurePool (pool : Nat) (quote : Address) (kind : Nat)
  | setDefaultRewardAsset (asset : Address)
  | declareEpochAsset (epoch : Nat) (asset : Address)
  | onFeeCredit (pool : Nat) (quote : Address) (kind amount : Nat)
  | releaseCarry
  | transfer (sender receiver : Address) (amount : Nat)
  | syncEligibility (account : Address)
  | onEligibilityChange (account : Address)
  | checkpointExpiry (time : Nat)
  | stageCredit (account : Address) (epochs : List Nat) (asset : Address)
  | claim (epochs : List Nat) (assets : List Address)
  | deliver (epoch : Nat) (asset : Address) (amount : Nat)
  | sealReward (epoch cohort : Nat)

def step (c : Config) (s : State) (k : Controller) (env : Env) (call : Call) : Tx State :=
  let cut := s.cutoff k env.now
  match call with
  | .configureAssetSchedule schedule => configureAssetSchedule c s k env schedule
  | .configureRounds manager policy => configureRounds c s env manager policy
  | .declareEpochRewardPolicy epoch asset policy => declareEpochRewardPolicy c s k env epoch asset policy
  | .configurePayout payout => configurePayout c s env payout
  | .configureEligibility => configureEligibility c s k env
  | .configurePool pool quote kind => configurePool c s k env pool quote kind
  | .setDefaultRewardAsset asset => setDefaultRewardAsset c s env asset
  | .declareEpochAsset epoch asset => declareEpochAsset c s k env epoch asset
  | .onFeeCredit pool quote kind amount => onFeeCredit c s cut env pool quote kind amount
  | .releaseCarry => releaseCarry s cut env.now
  | .transfer sender receiver amount => update c s k cut env sender receiver amount
  | .syncEligibility account => syncEligibility c s k cut env account
  | .onEligibilityChange account => onEligibilityChange s k cut env account
  | .checkpointExpiry time => checkpointExpiry s env time
  | .stageCredit account epochs asset => stageCredit s cut env account epochs asset
  | .claim epochs assets => claim s k cut env epochs assets
  | .deliver epoch asset amount => deliver c s env epoch asset amount
  | .sealReward epoch cohort => do
    let (s, _) ← sealReward s env epoch cohort
    pure s

structure System where
  token : State
  controller : Controller
  now : Nat

/-- Time passes, governance acts on the controller, or anyone calls the token. -/
inductive Turn (c : Config) (governance : Address) (s : System) : System → Prop where
  | wait (now : Nat) (order : s.now ≤ now) : Turn c governance s { s with now := now }
  | govern (env : Eligibility.Env) (action : Eligibility.Action) (order : s.now ≤ env.now)
      {after : Controller} (taken : Eligibility.step governance s.controller env action = .ok after) :
      Turn c governance s ⟨s.token, after, env.now⟩
  | call (env : Env) (call : Call) (order : s.now ≤ env.now) {after : State}
      (taken : step c s.token s.controller env call = .ok after) :
      Turn c governance s ⟨after, s.controller, env.now⟩

def Setup.empty : Setup :=
  ⟨false, false, none, 0, [], fun _ => false, 0, ⟨0, 0, 0⟩, fun _ => ⟨0, 0, 0⟩, 0, 0, 0, 0, 0⟩

def Payouts.empty : Payouts :=
  ⟨fun _ => false, fun _ _ => 0, fun _ => 0, fun _ => 0, fun _ => 0, fun _ => 0, fun _ => 0,
    fun _ => 0, fun _ => false⟩

/-- The constructor: the strategy, which never earns, holds the supply, and the carry's clock
starts. -/
def deployed (c : Config) (now : Nat) : State where
  setup := Setup.empty
  payouts := Payouts.empty
  token := Token.empty.credit c.strategy supply
  participants := []
  modeGeneration := 0
  accountGeneration := fun _ => 0
  accountExpiry := fun _ => 0
  expiryWeights := fun _ => 0
  eligible := fun _ => 0
  totalEligible := 0
  accountHistory := fun _ => []
  rewardPerEligibleToken := 0
  carryPerEligibleToken := 0
  indexRemainder := 0
  carryIndexRemainder := 0
  lastDenominator := 0
  indexEpoch := 0
  indexHistory := []
  sequence := 0
  carry := { Stream.empty with last := now }
  epochAsset := fun _ => 0
  epochBudget := fun _ => 0
  epochDust27 := fun _ => 0
  totalCredited := 0
  lastFeeAt := 0
  credits := []

end Solonpad.RewardToken
