import Solonpad.ExpiringWeights
import Solonpad.IndexedCredit
import Solonpad.MergedLog
import Solonpad.RewardToken

/-!
`SolonStakingV2.sol` with its factory's carry streams: staked principal earns the rewards of many
lanes. Weights change without touching a lane; each lane reads the global weight events and its own
events in the order of one sequence counter, a page at a time, and gives out what its carry
released. The mappings keyed by a lane are one record a lane, and what the two indices of a lane
give out is its `book`. Hashes are their arguments, so no two of them collide. What leaves the
contract is settled by the environment: a payment either arrives exactly or the call reverts.
`direct27` of an event, `paid` of a side and `born` of a lane are kept for the proofs.
-/

namespace Solonpad.Staking

open Checked CarryStream Eligibility ExpiringWeights IndexedCredit MergedLog
open Chain (Address)
open RewardToken (Schedule precision)

inductive StakingError where
  | amount | basketFrozen | beneficiaryConsent | beneficiary | budgetUnfunded | carryPage
  | checkpointCarryFirst | configurator | configured | emptyBudget | fundingAmount | ledgerClaim
  | ledger | nativeDelta | principalDelta | principal | protocolConfiguration | protocolFunding
  | protocolNotify | rawSourcePage | registry | rewardConfiguration | sealState | sourceCoverage
  | source | sourceFunding | stageDelta | stockDelta | stockFunding | v2Budget | v2Configuration
  | clockOverflow | divisionByZero | resolve | schedules | basketAsset
  deriving DecidableEq, Repr

abbrev Tx (α : Type) := Checked.Tx StakingError α

/-- What a `bytes32` source stands for. -/
inductive Source where
  | raw (n : Nat)
  | v2Staking
  | protocolDesk (pool : Source)
  deriving DecidableEq

structure Key where
  source : Source
  asset : Address
  kind : Nat
  deriving DecidableEq

def laneKey (source : Source) (asset : Address) (kind : Nat) : Key :=
  ⟨source, if kind = 0 then 0 else asset, kind⟩

structure EpochPolicy where
  asset : Address
  assetId : Nat
  version : Nat
  policy : Nat

def EpochPolicy.none : EpochPolicy := ⟨0, 0, 0, 0⟩

structure CarryEvent where
  seq : Nat
  time : Nat
  denominator : Nat
  revision : Nat
  deposit27 : Nat
  direct27 : Nat

structure WeightPoint where
  seq : Nat
  time : Nat
  weight : Nat
  expiry : Nat
  generation : Nat

/-- A lane's two indices, its carry stream and what they gave out. -/
structure Book where
  direct : Side
  carried : Side
  stream : Stream
  creditTotal27 : Nat → Nat
  dust27 : Nat → Nat

def Book.empty : Book := ⟨.empty, .empty, .empty, fun _ => 0, fun _ => 0⟩

structure Lane where
  present : Bool
  source : Source
  asset : Address
  quote : Address
  kind : Nat
  assetId : Nat
  version : Nat
  policy : Nat
  events : List CarryEvent
  cursors : Cursors
  book : Book
  born : Nat
  totalNotified27 : Nat
  fundedAmount : Nat
  nativeAvailable : Nat
  totalStaged : Nat
  lastFeeAt : Nat
  ledgerLane : Bool
  entrySource : Address
  rewardSealed : Nat → Bool
  epochPolicies : Nat → EpochPolicy
  creditedToPayout : Nat → Address → Nat

def Lane.blank : Lane :=
  ⟨false, .raw 0, 0, 0, 0, 0, 0, 0, [], ⟨0, 0⟩, .empty, 0, 0, 0, 0, 0, 0, false, 0, fun _ => false,
    fun _ => .none, fun _ _ => 0⟩

structure State where
  roll : Roll Address
  requiredAssetMask : Nat
  weights : Address → List WeightPoint
  weightEvents : List CarryEvent
  sequence : Nat
  weightRevision : Nat
  lanes : Key → Lane
  totalStaked : Nat
  stakedOf : Address → Nat
  participants : List (Address × Nat)
  participated : Address → Bool
  poolLane : Source → Option Key
  automaticPool : Source → Bool
  v2Notifier : Address
  v2Lane : Option Key
  consumedV2Lot : Nat → Bool
  protocolDesk : Address
  protocolPolicy : EpochPolicy
  schedulesConfigured : Bool
  v2Schedule : Option Schedule
  protocolSchedule : Option Schedule
  roundsManager : Address
  payout : Address

def State.empty : State where
  roll := .empty
  requiredAssetMask := 0
  weights := fun _ => []
  weightEvents := []
  sequence := 0
  weightRevision := 0
  lanes := fun _ => .blank
  totalStaked := 0
  stakedOf := fun _ => 0
  participants := []
  participated := fun _ => false
  poolLane := fun _ => none
  automaticPool := fun _ => false
  v2Notifier := 0
  v2Lane := none
  consumedV2Lot := fun _ => false
  protocolDesk := 0
  protocolPolicy := .none
  schedulesConfigured := false
  v2Schedule := none
  protocolSchedule := none
  roundsManager := 0
  payout := 0

structure Config where
  self : Address
  solon : Address
  ledger : Address
  configurator : Address

/-- What surrounds one call. -/
structure Env where
  sender : Address
  now : Nat
  value : Nat
  hasCode : Address → Bool
  registry : Registry
  /-- `sourceFactory.resolvePool`, none where it reverts. -/
  resolvePool : Source → Address → Nat → Nat → Option EpochPolicy
  /-- What the protocol desk answers to `schedule()`. -/
  deskSchedule : Option Schedule
  consent : Bool
  ledgerPays : Nat → Bool
  transfers : Address → Nat → Bool
  created : Address

def State.setLane (s : State) (key : Key) (l : Lane) : State :=
  { s with lanes := Function.update s.lanes key l }

/-! Weights and their log. `cut` is the start of mode A, once it has passed. -/

def effectiveEligible (s : State) (cut : Option Nat) (now : Nat) : Nat := s.roll.effective cut.isSome now

def syncMode (s : State) (cut : Option Nat) (now : Nat) : State :=
  if cut.isSome = true ∧ s.roll.modeGeneration = 0 then
    { s with
      sequence := s.sequence + 1
      weightRevision := s.weightRevision + 1
      weightEvents := s.weightEvents ++ [⟨s.sequence + 1, now, 0, s.weightRevision + 1, 0, 0⟩]
      roll := s.roll.switch }
  else s

def weightPoint (s : State) (account : Address) (now : Nat) : State :=
  { s with
    sequence := s.sequence + 1
    weightRevision := s.weightRevision + 1
    weights := Function.update s.weights account (s.weights account ++
      [⟨s.sequence + 1, now, s.roll.eligible account, s.roll.accountExpiry account,
        s.roll.accountGeneration account⟩]) }

def syncAccount (s : State) (cut : Option Nat) (now : Nat) (account : Address) : Tx State :=
  let s := syncMode s cut now
  let migrated := s.roll.accountGeneration account ≠ s.roll.modeGeneration
  let amount := s.roll.eligible account
  if migrated ∨ s.roll.modeGeneration = 1 ∧ amount ≠ 0 ∧ s.roll.accountExpiry account ≤ now then do
    let roll ← if ¬ migrated ∧ amount ≠ 0 then s.roll.retire account amount else pure s.roll
    pure (weightPoint { s with roll := roll.cleared account } account now)
  else pure s

def checkpointWeight (s : State) (cut : Option Nat) (now : Nat) : State :=
  let s := syncMode s cut now
  { s with
    sequence := s.sequence + 1
    weightEvents := s.weightEvents ++
      [⟨s.sequence + 1, now, effectiveEligible s cut now, s.weightRevision, 0, 0⟩] }

/-- When a credential that may earn now expires, or zero. -/
def eligibilityExpiry (k : Controller) (env : Env) (account : Address) (requiredMask : Nat) : Nat :=
  let credential := env.registry.credentials account
  if credential.generation = 0 ∨ credential.revoked = true ∨ credential.validUntil.toNat ≤ env.now ∨
      credential.policyHash ≠ k.policyHash ∨ requiredMask = 0 ∨
      credential.assetMask &&& requiredMask ≠ requiredMask then 0
  else credential.validUntil.toNat

def qualify (c : Config) (s : State) (k : Controller) (env : Env) (account : Address) : Bool × State :=
  if account = c.self ∨ account = c.ledger ∨ account = c.solon ∨ k.systemVaultMask account ≠ 0 then
    (false, s)
  else if s.roll.modeGeneration = 0 then (true, s)
  else
    let expiry := eligibilityExpiry k env account s.requiredAssetMask
    if expiry = 0 then (false, s)
    else (true, { s with
      roll := { s.roll with accountExpiry := Function.update s.roll.accountExpiry account expiry } })

def reweigh (c : Config) (s : State) (k : Controller) (env : Env) (account : Address) : Tx State := do
  let previous := s.roll.eligible account
  let staked := s.stakedOf account
  let (earns, s) := if staked = 0 then (false, s)
    else if previous ≠ 0 then (true, s) else qualify c s k env account
  let next := if earns then staked else 0
  if next = previous then pure s
  else do
    let roll ← s.roll.reweigh account next
    let joins := previous = 0 ∧ s.participated account = false
    let s := { s with
      roll := roll
      participated := if joins then Function.update s.participated account true else s.participated
      participants := if joins then s.participants ++ [(account, env.now)] else s.participants }
    pure (weightPoint s account env.now)

def onEligibilityChange (s : State) (k : Controller) (cut : Option Nat) (env : Env)
    (account : Address) : Tx State := do
  require (env.sender = k.registry) .registry
  let s ← syncAccount s cut env.now account
  let s := checkpointWeight s cut env.now
  let amount := s.roll.eligible account
  if amount ≠ 0 then do
    let tree ← if s.roll.modeGeneration = 1 then
        DyadicTree.sub 32 s.roll.expiryWeights (s.roll.accountExpiry account) amount
      else pure s.roll.expiryWeights
    let total ← Checked.sub s.roll.totalEligible amount
    let roll := { s.roll with
      expiryWeights := tree
      eligible := Function.update s.roll.eligible account 0
      totalEligible := total
      accountExpiry := Function.update s.roll.accountExpiry account 0 }
    pure (weightPoint { s with roll := roll } account env.now)
  else pure s

def syncEligibility (c : Config) (s : State) (k : Controller) (cut : Option Nat) (env : Env)
    (account : Address) : Tx State := do
  let s ← syncAccount s cut env.now account
  reweigh c (checkpointWeight s cut env.now) k env account

/-- Both forms of `stake`: for another beneficiary its signed consent is asked for. -/
def stake (c : Config) (s : State) (k : Controller) (cut : Option Nat) (env : Env)
    (beneficiary : Address) (amount : Nat) : Tx State := do
  require (beneficiary ≠ 0) .beneficiary
  require (beneficiary ≠ env.sender → env.consent = true) .beneficiaryConsent
  require (amount ≠ 0) .amount
  let s ← syncAccount s cut env.now beneficiary
  let s := checkpointWeight s cut env.now
  require (env.transfers c.solon amount = true) .principalDelta
  reweigh c { s with
    stakedOf := Function.update s.stakedOf beneficiary (s.stakedOf beneficiary + amount)
    totalStaked := s.totalStaked + amount } k env beneficiary

def unstake (c : Config) (s : State) (k : Controller) (cut : Option Nat) (env : Env) (amount : Nat)
    (receiver : Address) : Tx State := do
  require (amount ≠ 0 ∧ amount ≤ s.stakedOf env.sender ∧ receiver ≠ 0) .principal
  let s ← syncAccount s cut env.now env.sender
  let s := checkpointWeight s cut env.now
  let staked ← Checked.sub (s.stakedOf env.sender) amount
  let total ← Checked.sub s.totalStaked amount
  let s ← reweigh c { s with
    stakedOf := Function.update s.stakedOf env.sender staked, totalStaked := total } k env env.sender
  require (env.transfers c.solon amount = true) .principalDelta
  pure s

/-! Policies. -/

def resolveExternal (s : State) (env : Env) (v2 : Bool) (epoch : Nat) : Tx EpochPolicy :=
  let schedule := if v2 = true then s.v2Schedule
    else match s.protocolSchedule with
      | some schedule => some schedule
      | none => env.deskSchedule
  match schedule with
  | none => pure .none
  | some schedule =>
    match schedule.policies[schedule.rotationIndex epoch]? with
    | some (asset, p) => pure ⟨asset, p.assetId, p.version, p.pricePolicy⟩
    | none => throw .bounds

/-- `_policy`. -/
def policyOf (s : State) (env : Env) (key : Key) (epoch : Nat) : Tx EpochPolicy :=
  let l := s.lanes key
  if (l.epochPolicies epoch).asset ≠ 0 then pure (l.epochPolicies epoch)
  else if l.kind = 0 ∧ s.automaticPool l.source = true then
    match env.resolvePool l.source 0 0 epoch with
    | some p => pure p
    | none => throw (.revert .resolve)
  else do
    let p ← if l.kind = 0 ∧ l.ledgerLane = false then
        resolveExternal s env (decide (s.v2Lane = some key)) epoch
      else pure .none
    pure (if p.asset = 0 then ⟨l.asset, l.assetId, l.version, l.policy⟩ else p)

/-- An asset's bit enters the basket in default B, and must be in it already in mode A. -/
def basketMask (k : Controller) (cut : Option Nat) (mask : Nat) (asset : Address) : Tx Nat :=
  let id := k.assetIds asset
  if cut.isSome = true then do
    require (id ≠ 0 ∧ hasBit mask (id - 1)) .basketFrozen
    pure mask
  else pure (if id ≠ 0 then mask ||| (1 <<< (id - 1)) else mask)

def stampPolicy (s : State) (k : Controller) (cut : Option Nat) (env : Env) (key : Key) (epoch : Nat) :
    Tx State :=
  let l := s.lanes key
  if (l.epochPolicies epoch).asset = 0 then do
    let p ← policyOf s env key epoch
    let mask ← basketMask k cut s.requiredAssetMask p.asset
    pure (State.setLane { s with requiredAssetMask := mask } key
      { l with epochPolicies := Function.update l.epochPolicies epoch p })
  else pure s

/-! Lanes. -/

/-- The index step of `_distribute`. -/
def Book.distribute (b : Book) (seq time denominator revision amount27 : Nat) : Book :=
  let epoch := time / day
  let frozen := b.direct.frozen denominator revision epoch
  { b with
    dust27 := Function.update b.dust27 b.direct.epoch (b.dust27 b.direct.epoch + frozen)
    direct := b.direct.credit seq time epoch denominator revision amount27
    creditTotal27 := Function.update b.creditTotal27 epoch (b.creditTotal27 epoch + amount27) }

/-- The index step of `_processCarry`. -/
def Book.release (b : Book) (e : CarryEvent) (unlocked : Nat) : Book :=
  let epoch := e.time / day
  let frozen := b.carried.frozen e.denominator e.revision epoch
  { b with
    dust27 := Function.update b.dust27 b.carried.epoch (b.dust27 b.carried.epoch + frozen)
    carried := b.carried.credit e.seq e.time epoch e.denominator e.revision unlocked
    creditTotal27 := Function.update b.creditTotal27 epoch (b.creditTotal27 epoch + unlocked) }

/-- `checkpointCarry` of the factory: what an event unlocks, and then its deposit. -/
def checkpointCarry (stream : Stream) (e : CarryEvent) : Tx (Stream × Nat) := do
  let (stream, unlocked) ← checkpoint .clockOverflow stream (decide (e.denominator ≠ 0)) e.time
  pure (if e.deposit27 ≠ 0 then deposit stream e.deposit27 else stream, unlocked)

/-- What one event does to a lane's book, with what it unlocked. -/
def Book.absorb (b : Book) (e : CarryEvent) : Tx (Book × Nat) := do
  let (stream, unlocked) ← checkpointCarry b.stream e
  let b := { b with stream := stream }
  if unlocked ≠ 0 then do
    require (e.denominator ≠ 0) .divisionByZero
    pure (b.release e unlocked, unlocked)
  else pure (b, unlocked)

/-- The body of the loop of `_processCarry`. -/
def processEvent (s : State) (k : Controller) (cut : Option Nat) (env : Env) (key : Key) (e : CarryEvent)
    (cursors : Cursors) : Tx State := do
  let l := s.lanes key
  let (book, unlocked) ← l.book.absorb e
  let s := s.setLane key { l with book := book, cursors := cursors }
  if unlocked ≠ 0 then stampPolicy s k cut env key (e.time / day) else pure s

def nextEvent (s : State) (key : Key) : Option (CarryEvent × Cursors) :=
  next CarryEvent.seq s.weightEvents (s.lanes key).events (s.lanes key).cursors

/-- What the lane has not read yet, in order. -/
def pending (s : State) (key : Key) : List CarryEvent :=
  unread CarryEvent.seq s.weightEvents (s.lanes key).events (s.lanes key).cursors

def processCarry (k : Controller) (cut : Option Nat) (env : Env) (key : Key) : Nat → State →
    Tx (State × Bool)
  | 0, s => pure (s, decide ((s.lanes key).cursors.left = s.weightEvents.length ∧
      (s.lanes key).cursors.right = (s.lanes key).events.length))
  | n + 1, s =>
    match nextEvent s key with
    | none => pure (s, true)
    | some (e, cursors) => do
      let s ← processEvent s k cut env key e cursors
      processCarry k cut env key n s

/-- `laneEvents[key].push` at the next sequence number. -/
def logEvent (s : State) (cut : Option Nat) (now : Nat) (key : Key) (deposit27 direct27 : Nat) : State :=
  let l := s.lanes key
  let event : CarryEvent := ⟨s.sequence + 1, now, effectiveEligible s cut now, s.weightRevision,
    deposit27, direct27⟩
  State.setLane { s with sequence := s.sequence + 1 } key { l with events := l.events ++ [event] }

def releaseCarry (s : State) (k : Controller) (cut : Option Nat) (env : Env) (key : Key)
    (maxSteps : Nat) : Tx (State × Bool) := do
  require ((s.lanes key).present = true ∧ 0 < maxSteps ∧ maxSteps ≤ 256) .carryPage
  processCarry k cut env key maxSteps (logEvent (syncMode s cut env.now) cut env.now key 0 0)

def distribute (s : State) (k : Controller) (cut : Option Nat) (env : Env) (key : Key)
    (amount27 : Nat) : Tx State := do
  let l := s.lanes key
  let denominator := effectiveEligible s cut env.now
  require (denominator ≠ 0) .divisionByZero
  let book := l.book.distribute s.sequence env.now denominator s.weightRevision amount27
  stampPolicy (s.setLane key { l with book := book }) k cut env key (env.now / day)

/-- `_notify`. -/
def notify (s : State) (k : Controller) (cut : Option Nat) (env : Env) (key : Key) (amount27 : Nat) :
    Tx State := do
  require (amount27 ≠ 0) .amount
  let s := syncMode s cut env.now
  let denominator := effectiveEligible s cut env.now
  let s := logEvent s cut env.now key (if denominator = 0 then amount27 else 0)
    (if denominator = 0 then 0 else amount27)
  let l := s.lanes key
  let s := s.setLane key { l with
    totalNotified27 := l.totalNotified27 + amount27, lastFeeAt := env.now }
  if denominator ≠ 0 then distribute s k cut env key amount27 else pure s

/-- `_registerLane`. -/
def registerLane (c : Config) (s : State) (k : Controller) (cut : Option Nat) (env : Env)
    (source : Source) (quote : Address) (kind : Nat) (p : EpochPolicy) : Tx (State × Key) := do
  require (source ≠ .raw 0 ∧ kind ≤ 1 ∧ env.hasCode p.asset = true ∧ p.asset ≠ c.solon ∧
    (if kind = 0 then quote = 0 else quote = p.asset)) .source
  let key := laneKey source p.asset kind
  let l := s.lanes key
  require (l.present = false) .configured
  let mask ← basketMask k cut s.requiredAssetMask p.asset
  pure (State.setLane { s with requiredAssetMask := mask } key { l with
    source := source, asset := p.asset, quote := quote, kind := kind, present := true
    assetId := p.assetId, version := p.version, policy := p.policy
    cursors := { l.cursors with left := s.weightEvents.length }
    born := s.weightEvents.length }, key)

/-! Reading credits. -/

def WeightPoint.standing (cut : Option Nat) (w : WeightPoint) : Standing :=
  ⟨w.seq, w.time, w.weight, if w.generation = 0 then cut
    else if w.generation = 1 then some w.expiry else none⟩

/-- The two `_credit` terms of `sourceCredit`. -/
def Book.creditOf (b : Book) (points : List Standing) (epoch : Nat) : Nat :=
  credit b.direct.history points (epoch * day) ((epoch + 1) * day) +
    credit b.carried.history points (epoch * day) ((epoch + 1) * day)

def standings (s : State) (cut : Option Nat) (account : Address) : List Standing :=
  (s.weights account).map (WeightPoint.standing cut)

def sourceCredit (s : State) (cut : Option Nat) (key : Key) (account : Address) (epoch : Nat) : Nat :=
  (s.lanes key).book.creditOf (standings s cut account) epoch

/-! Sealing and staging. -/

def sealSource (s : State) (k : Controller) (cut : Option Nat) (env : Env) (key : Key) (epoch : Nat) :
    Tx State := do
  let l := s.lanes key
  require (env.sender = l.entrySource ∧ env.sender ≠ 0 ∧ l.kind = 0 ∧ epoch < env.now / day ∧
    l.rewardSealed epoch = false) .sealState
  let (s, complete) ← processCarry k cut env key 256 s
  require (complete = true) .checkpointCarryFirst
  let l := s.lanes key
  let budget := l.book.creditTotal27 epoch / precision
  require (budget ≠ 0) .emptyBudget
  let l := { l with rewardSealed := Function.update l.rewardSealed epoch true }
  require (l.ledgerLane = true → env.ledgerPays budget = true) .ledgerClaim
  let available := if l.ledgerLane = true then l.nativeAvailable + budget else l.nativeAvailable
  require (budget ≤ available) .budgetUnfunded
  require (env.transfers 0 budget = true) .sourceFunding
  pure (s.setLane key { l with nativeAvailable := available - budget })

/-- The loop of `stageSource`: each epoch's growth is credited once. -/
def stageEpochs (s : State) (cut : Option Nat) (key : Key) (account : Address) : List Nat → Lane → Nat →
    Tx (Lane × Nat)
  | [], l, payment => pure (l, payment)
  | epoch :: rest, l, payment => do
    let owed := sourceCredit s cut key account epoch / precision
    let growth ← Checked.sub owed (l.creditedToPayout epoch account)
    stageEpochs s cut key account rest { l with
      creditedToPayout := Function.update l.creditedToPayout epoch
        (Function.update (l.creditedToPayout epoch) account owed) } (payment + growth)

def stageSource (s : State) (k : Controller) (cut : Option Nat) (env : Env) (key : Key)
    (account : Address) (epochs : List Nat) (asset : Address) : Tx State := do
  let l := s.lanes key
  require (env.sender = l.entrySource ∧ env.sender ≠ 0 ∧ s.payout ≠ 0) .source
  require (l.kind = 1 ∧ asset = l.asset ∧ epochs.length ≤ 20) .rawSourcePage
  let (s, complete) ← processCarry k cut env key 256
    (logEvent (syncMode s cut env.now) cut env.now key 0 0)
  require (complete = true) .checkpointCarryFirst
  let (l, payment) ← stageEpochs s cut key account epochs (s.lanes key) 0
  if payment ≠ 0 then do
    require (l.ledgerLane = true → env.ledgerPays payment = true) .ledgerClaim
    let funded := if l.ledgerLane = true then l.fundedAmount + payment else l.fundedAmount
    require (l.totalStaged + payment ≤ funded) .sourceCoverage
    require (env.transfers asset payment = true) .stageDelta
    pure (s.setLane key { l with fundedAmount := funded, totalStaged := l.totalStaged + payment })
  else pure (s.setLane key l)

/-! Notifications and setup. -/

def onFeeCredit (c : Config) (s : State) (k : Controller) (cut : Option Nat) (env : Env) (pool : Source)
    (quote : Address) (kind amount : Nat) : Tx State := do
  require (env.sender = c.ledger) .ledger
  let (s, key) ← match s.poolLane pool with
    | some key => pure (s, key)
    | none =>
      match env.resolvePool pool quote kind (env.now / day) with
      | none => throw (.revert .resolve)
      | some p => do
        let key := laneKey pool p.asset kind
        let s ← if (s.lanes key).present = true then pure s
          else do
            let (s, _) ← registerLane c s k cut env pool quote kind p
            pure s
        pure (State.setLane { s with
            automaticPool := Function.update s.automaticPool pool true
            poolLane := Function.update s.poolLane pool (some key) } key
          { s.lanes key with ledgerLane := true }, key)
  require ((s.lanes key).present = true ∧ (s.lanes key).quote = quote ∧ (s.lanes key).kind = kind) .source
  notify s k cut env key (amount * precision)

def notifyV2Budget (s : State) (k : Controller) (cut : Option Nat) (env : Env) (lot amount : Nat) :
    Tx State := do
  require (env.sender = s.v2Notifier ∧ lot ≠ 0 ∧ s.consumedV2Lot lot = false ∧ env.value = amount) .v2Budget
  match s.v2Lane with
  | none => throw (.revert .source)
  | some key => do
    let s ← notify { s with consumedV2Lot := Function.update s.consumedV2Lot lot true } k cut env key
      (amount * precision)
    let l := s.lanes key
    pure (s.setLane key { l with
      fundedAmount := l.fundedAmount + amount, nativeAvailable := l.nativeAvailable + amount })

def notifyProtocolDeskCredit (c : Config) (s : State) (k : Controller) (cut : Option Nat) (env : Env)
    (pool : Source) (epoch : Nat) (asset : Address) (kind amount27 : Nat) : Tx State := do
  require (env.sender = s.protocolDesk ∧ epoch = env.now / day) .protocolNotify
  let asset := if kind = 0 then s.protocolPolicy.asset else asset
  let key := laneKey (.protocolDesk pool) asset kind
  let s ← if (s.lanes key).present = true then pure s
    else do
      let (s, _) ← registerLane c s k cut env (.protocolDesk pool) (if kind = 0 then 0 else asset) kind
        { s.protocolPolicy with asset := asset }
      pure s
  notify s k cut env key amount27

def fundProtocolDesk (s : State) (env : Env) (pool : Source) (epoch : Nat) (asset : Address)
    (kind amount : Nat) : Tx State := do
  require (env.sender = s.protocolDesk ∧ epoch ≤ env.now / day) .protocolFunding
  let asset := if kind = 0 then s.protocolPolicy.asset else asset
  let key := laneKey (.protocolDesk pool) asset kind
  let l := s.lanes key
  require (l.present = true ∧ amount ≠ 0 ∧ l.fundedAmount + amount ≤ l.totalNotified27 / precision)
    .fundingAmount
  let l := { l with fundedAmount := l.fundedAmount + amount }
  if kind = 0 then do
    require (env.value = amount) .nativeDelta
    pure (s.setLane key { l with nativeAvailable := l.nativeAvailable + amount })
  else do
    require (env.value = 0) .stockFunding
    require (env.transfers asset amount = true) .stockDelta
    pure (s.setLane key l)

def configureSource (c : Config) (s : State) (k : Controller) (cut : Option Nat) (env : Env)
    (source : Source) (quote : Address) (kind : Nat) (p : EpochPolicy) : Tx State := do
  require (env.sender = c.configurator) .configurator
  require (s.poolLane source = none) .configured
  let (s, key) ← registerLane c s k cut env source quote kind p
  pure (State.setLane { s with poolLane := Function.update s.poolLane source (some key) } key
    { s.lanes key with ledgerLane := true })

def configureV2 (c : Config) (s : State) (k : Controller) (cut : Option Nat) (env : Env)
    (notifier : Address) (p : EpochPolicy) : Tx State := do
  require (env.sender = c.configurator ∧ s.v2Notifier = 0 ∧ env.hasCode notifier = true ∧
    p.assetId ≠ 0 ∧ p.version ≠ 0 ∧ p.policy ≠ 0) .v2Configuration
  let (s, key) ← registerLane c { s with v2Notifier := notifier } k cut env .v2Staking 0 0 p
  pure { s with v2Lane := some key }

def configureProtocolDesk (c : Config) (s : State) (k : Controller) (cut : Option Nat) (env : Env)
    (notifier : Address) (p : EpochPolicy) : Tx State := do
  require (env.sender = c.configurator ∧ cut = none ∧ s.protocolDesk = 0 ∧ env.hasCode notifier = true ∧
    env.hasCode p.asset = true ∧ p.asset ≠ c.solon ∧ p.assetId ≠ 0 ∧ p.version ≠ 0 ∧ p.policy ≠ 0)
    .protocolConfiguration
  let mask ← basketMask k none s.requiredAssetMask p.asset
  pure { s with protocolDesk := notifier, protocolPolicy := p, requiredAssetMask := mask }

/-- `assetMask` of the factory. -/
def assetMask (k : Controller) (env : Env) : List Address → Nat → Tx Nat
  | [], mask => pure mask
  | asset :: rest, mask => do
    require (k.assetIds asset ≠ 0 ∧ env.hasCode asset = true) .basketAsset
    assetMask k env rest (mask ||| (1 <<< (k.assetIds asset - 1)))

def configureEligibilityAssets (c : Config) (s : State) (k : Controller) (cut : Option Nat) (env : Env)
    (assets : List Address) : Tx State := do
  require (env.sender = c.configurator ∧ cut = none) .rewardConfiguration
  let mask ← assetMask k env assets s.requiredAssetMask
  pure { s with requiredAssetMask := mask }

/-- `_scheduleMask` of the factory. -/
def scheduleMask (k : Controller) (schedule : Option Schedule) (mask : Nat) : Nat :=
  match schedule with
  | none => mask
  | some schedule => schedule.policies.foldl (fun mask policy =>
      if k.assetIds policy.1 ≠ 0 then mask ||| (1 <<< (k.assetIds policy.1 - 1)) else mask) mask

def configureRewardSchedules (c : Config) (s : State) (k : Controller) (env : Env)
    (v2 protocol : Option Schedule) : Tx State := do
  require (env.sender = c.configurator ∧ s.sequence = 0) .rewardConfiguration
  require (s.schedulesConfigured = false ∧ (v2.isSome = true ∨ protocol.isSome = true)) .schedules
  pure { s with
    schedulesConfigured := true
    v2Schedule := v2
    protocolSchedule := protocol
    requiredAssetMask := scheduleMask k protocol (scheduleMask k v2 s.requiredAssetMask) }

def configureRewards (c : Config) (s : State) (env : Env) (manager payout : Address) : Tx State := do
  require (env.sender = c.configurator ∧ s.roundsManager = 0 ∧ env.hasCode manager = true ∧
    env.hasCode payout = true) .rewardConfiguration
  pure { s with roundsManager := manager, payout := payout }

/-- The registration with the round manager and the vault is theirs. -/
def createEntrySource (s : State) (env : Env) (key : Key) : Tx State := do
  require ((s.lanes key).present = true) .source
  if (s.lanes key).entrySource = 0 then
    pure (s.setLane key { s.lanes key with entrySource := env.created })
  else pure s

/-! The contract with its controller, in time. -/

inductive Call where
  | stake (beneficiary : Address) (amount : Nat)
  | unstake (amount : Nat) (receiver : Address)
  | syncEligibility (account : Address)
  | onEligibilityChange (account : Address)
  | releaseCarry (key : Key) (maxSteps : Nat)
  | sealSource (key : Key) (epoch : Nat)
  | stageSource (key : Key) (account : Address) (epochs : List Nat) (asset : Address)
  | onFeeCredit (pool : Source) (quote : Address) (kind amount : Nat)
  | notifyV2Budget (lot amount : Nat)
  | notifyProtocolDeskCredit (pool : Source) (epoch : Nat) (asset : Address) (kind amount27 : Nat)
  | fundProtocolDesk (pool : Source) (epoch : Nat) (asset : Address) (kind amount : Nat)
  | configureSource (source : Source) (quote : Address) (kind : Nat) (p : EpochPolicy)
  | configureV2 (notifier : Address) (p : EpochPolicy)
  | configureProtocolDesk (notifier : Address) (p : EpochPolicy)
  | configureEligibilityAssets (assets : List Address)
  | configureRewardSchedules (v2 protocol : Option Schedule)
  | configureRewards (manager payout : Address)
  | createEntrySource (key : Key)

def step (c : Config) (s : State) (k : Controller) (env : Env) (call : Call) : Tx State :=
  let cut := k.cutoff env.now
  match call with
  | .stake beneficiary amount => stake c s k cut env beneficiary amount
  | .unstake amount receiver => unstake c s k cut env amount receiver
  | .syncEligibility account => syncEligibility c s k cut env account
  | .onEligibilityChange account => onEligibilityChange s k cut env account
  | .releaseCarry key maxSteps => do
    let (s, _) ← releaseCarry s k cut env key maxSteps
    pure s
  | .sealSource key epoch => sealSource s k cut env key epoch
  | .stageSource key account epochs asset => stageSource s k cut env key account epochs asset
  | .onFeeCredit pool quote kind amount => onFeeCredit c s k cut env pool quote kind amount
  | .notifyV2Budget lot amount => notifyV2Budget s k cut env lot amount
  | .notifyProtocolDeskCredit pool epoch asset kind amount27 =>
    notifyProtocolDeskCredit c s k cut env pool epoch asset kind amount27
  | .fundProtocolDesk pool epoch asset kind amount => fundProtocolDesk s env pool epoch asset kind amount
  | .configureSource source quote kind p => configureSource c s k cut env source quote kind p
  | .configureV2 notifier p => configureV2 c s k cut env notifier p
  | .configureProtocolDesk notifier p => configureProtocolDesk c s k cut env notifier p
  | .configureEligibilityAssets assets => configureEligibilityAssets c s k cut env assets
  | .configureRewardSchedules v2 protocol => configureRewardSchedules c s k env v2 protocol
  | .configureRewards manager payout => configureRewards c s env manager payout
  | .createEntrySource key => createEntrySource s env key

structure System where
  staking : State
  controller : Controller
  now : Nat

/-- Time passes, governance acts on the controller, or anyone calls the contract. -/
inductive Turn (c : Config) (governance : Address) (s : System) : System → Prop where
  | wait (now : Nat) (order : s.now ≤ now) : Turn c governance s { s with now := now }
  | govern (env : Eligibility.Env) (action : Eligibility.Action) (order : s.now ≤ env.now)
      {after : Controller} (taken : Eligibility.step governance s.controller env action = .ok after) :
      Turn c governance s ⟨s.staking, after, env.now⟩
  | call (env : Env) (call : Call) (order : s.now ≤ env.now) {after : State}
      (taken : step c s.staking s.controller env call = .ok after) :
      Turn c governance s ⟨after, s.controller, env.now⟩

def Run (c : Config) (governance : Address) : System → System → Prop :=
  Relation.ReflTransGen (Turn c governance)

def start (k : Controller) (now : Nat) : System := ⟨.empty, k, now⟩

end Solonpad.Staking
