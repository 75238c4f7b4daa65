import Solonpad.Chain
import Solonpad.Transition

/-!
`SolonStaking.sol`: staked SOLON earns SOLON, streamed by two lanes over time. What streams while
nothing is staked is idle until the owner streams it again. Unstaking settles in two guarded calls,
either of which may fail and be skipped. What a token transfer brings and whether it succeeds is part
of a call's environment.
-/

namespace Solonpad.SolonStaking

open Checked
open Chain (Address)

inductive StakingError where
  | zero | cap | paused | badAmount | notOwner | renounceDisabled | notDistributor | belowMinimum
  | genesisSeeded | nothing | reserve | rewardTooSmall | underfunded | transferFailed
  deriving DecidableEq, Repr

abbrev Tx (α : Type) := Checked.Tx StakingError α

inductive LaneId where
  | buyback | genesis
  deriving DecidableEq, Repr

structure Lane where
  /-- Wei a second. -/
  rate : Nat
  periodFinish : Nat
  deriving DecidableEq

structure State where
  owner : Address
  pendingOwner : Address
  distributor : Address
  stakeCap : Nat
  paused : Bool
  genesisSeeded : Bool
  lanes : LaneId → Lane
  lastUpdateTime : Nat
  rewardPerTokenStored : Nat
  totalStaked : Nat
  rewardReserve : Nat
  idleRewards : Nat
  stakedOf : Address → Nat
  userRewardPerTokenPaid : Address → Nat
  rewards : Address → Nat
  /-- The contract's SOLON. -/
  balance : Nat

/-- `received` is what a pull brings; the last two say that the guarded calls of `unstake` have the
gas and the figures they need. -/
structure Env where
  sender : Address
  now : Nat
  received : Nat
  transfers : Bool
  checkpoints : Bool
  pays : Bool

def deployed (owner : Address) (stakeCap now balance : Nat) : State where
  owner := owner
  pendingOwner := 0
  distributor := 0
  stakeCap := stakeCap
  paused := false
  genesisSeeded := false
  lanes := fun _ => ⟨0, 0⟩
  lastUpdateTime := now
  rewardPerTokenStored := 0
  totalStaked := 0
  rewardReserve := 0
  idleRewards := 0
  stakedOf := fun _ => 0
  userRewardPerTokenPaid := fun _ => 0
  rewards := fun _ => 0
  balance := balance

/-- The scale of `rewardPerTokenStored`. -/
def unit : Nat := 10 ^ 18

def minNotify : Nat := 1000 * 10 ^ 18

/-- `_duration`. -/
def LaneId.duration : LaneId → Nat
  | .buyback => 7 * 86400
  | .genesis => 30 * 86400

/-! Views. -/

/-- What a lane has streamed since the last update. -/
def Lane.flow (l : Lane) (last now : Nat) : Nat := (min now l.periodFinish - last) * l.rate

/-- What a lane still streams. -/
def Lane.rest (l : Lane) (now : Nat) : Nat := (l.periodFinish - now) * l.rate

/-- `_pendingFlow`. -/
def pendingFlow (s : State) (now : Nat) : Nat :=
  (s.lanes .buyback).flow s.lastUpdateTime now + (s.lanes .genesis).flow s.lastUpdateTime now

def unflowedRewards (s : State) (now : Nat) : Nat :=
  (s.lanes .buyback).rest now + (s.lanes .genesis).rest now

def rewardPerToken (s : State) (now : Nat) : Nat :=
  if s.totalStaked = 0 then s.rewardPerTokenStored
  else s.rewardPerTokenStored + pendingFlow s now * unit / s.totalStaked

def earned (s : State) (now : Nat) (account : Address) : Nat :=
  s.stakedOf account * (rewardPerToken s now - s.userRewardPerTokenPaid account) / unit + s.rewards account

/-! Settling. -/

/-- The streams up to now. -/
def flowed (s : State) (now : Nat) : State :=
  let flow := pendingFlow s now
  { s with
    idleRewards := if s.totalStaked = 0 then s.idleRewards + flow else s.idleRewards
    rewardPerTokenStored :=
      if s.totalStaked = 0 then s.rewardPerTokenStored
      else s.rewardPerTokenStored + flow * unit / s.totalStaked
    lastUpdateTime := now }

/-- `_checkpoint`. -/
def checkpoint (s : State) (now : Nat) (account : Address) : State :=
  let s := flowed s now
  if account = 0 then s
  else { s with
    rewards := Function.update s.rewards account (earned s now account)
    userRewardPerTokenPaid := Function.update s.userRewardPerTokenPaid account s.rewardPerTokenStored }

/-- `_pay`, with what it pays. -/
def pay (s : State) (env : Env) (account : Address) : Tx (State × Nat) :=
  let owed := s.rewards account
  let paid := if owed < s.rewardReserve then owed else s.rewardReserve
  if paid = 0 then pure (s, 0)
  else do
    let balance ← sub s.balance paid
    require (env.transfers = true) .transferFailed
    pure ({ s with
      rewards := Function.update s.rewards account (owed - paid)
      rewardReserve := s.rewardReserve - paid
      balance := balance }, paid)

/-- `_startPeriod`. -/
def startPeriod (s : State) (now : Nat) (lane : LaneId) (amount : Nat) : Tx State := do
  let l := s.lanes lane
  let d := lane.duration
  let total := amount + l.rest now
  let rate := total / d
  require (0 < rate) .rewardTooSmall
  let s := { s with
    lanes := Function.update s.lanes lane ⟨rate, now + d⟩
    idleRewards := s.idleRewards + (total - rate * d) }
  require (unflowedRewards s now + s.idleRewards ≤ s.rewardReserve) .underfunded
  pure s

/-- `_pull`. -/
def pull (s : State) (env : Env) : Tx State := do
  require (env.transfers = true) .transferFailed
  pure { s with balance := s.balance + env.received }

/-- `_inject`. -/
def inject (s : State) (now : Nat) (lane : LaneId) (amount : Nat) : Tx State :=
  startPeriod { s with rewardReserve := s.rewardReserve + amount } now lane amount

/-! The owner's calls. -/

def setDistributor (s : State) (env : Env) (d : Address) : Tx State := do
  require (env.sender = s.owner) .notOwner
  pure { s with distributor := d }

def setStakeCap (s : State) (env : Env) (cap : Nat) : Tx State := do
  require (env.sender = s.owner) .notOwner
  pure { s with stakeCap := cap }

/-- `pause` and `unpause`. -/
def setPaused (s : State) (env : Env) (paused : Bool) : Tx State := do
  require (env.sender = s.owner) .notOwner
  pure { s with paused := paused }

def transferOwnership (s : State) (env : Env) (newOwner : Address) : Tx State := do
  require (env.sender = s.owner) .notOwner
  pure { s with pendingOwner := newOwner }

def acceptOwnership (s : State) (env : Env) : Tx State := do
  require (env.sender = s.pendingOwner) .notOwner
  pure { s with owner := env.sender, pendingOwner := 0 }

/-! Stakers' calls. -/

def stake (s : State) (env : Env) (amount : Nat) : Tx State := do
  require (s.paused = false) .paused
  let s := checkpoint s env.now env.sender
  require (0 < amount) .zero
  require (s.totalStaked + amount ≤ s.stakeCap) .cap
  let s ← pull s env
  pure { s with
    totalStaked := s.totalStaked + env.received
    stakedOf := Function.update s.stakedOf env.sender (s.stakedOf env.sender + env.received) }

/-- The guarded part of `unstake`. -/
def settle (s : State) (env : Env) : State :=
  if env.checkpoints = true then
    let s := checkpoint s env.now env.sender
    match attempted env.pays (pay s env env.sender) with
    | some (after, _) => after
    | none => s
  else s

def unstake (s : State) (env : Env) (amount : Nat) : Tx State := do
  let staked := s.stakedOf env.sender
  require (0 < amount ∧ amount ≤ staked) .badAmount
  let s := settle s env
  let totalStaked ← sub s.totalStaked amount
  let balance ← sub s.balance amount
  require (env.transfers = true) .transferFailed
  pure { s with
    stakedOf := Function.update s.stakedOf env.sender (staked - amount)
    totalStaked := totalStaked
    balance := balance }

def claim (s : State) (env : Env) : Tx (State × Nat) :=
  pay (checkpoint s env.now env.sender) env env.sender

def compound (s : State) (env : Env) : Tx State := do
  require (s.paused = false) .paused
  let s := checkpoint s env.now env.sender
  let r := s.rewards env.sender
  require (0 < r) .nothing
  require (r ≤ s.rewardReserve) .reserve
  require (s.totalStaked + r ≤ s.stakeCap) .cap
  pure { s with
    rewards := Function.update s.rewards env.sender 0
    rewardReserve := s.rewardReserve - r
    totalStaked := s.totalStaked + r
    stakedOf := Function.update s.stakedOf env.sender (s.stakedOf env.sender + r) }

/-! Funding. -/

def notifyBuyback (s : State) (env : Env) (amount : Nat) : Tx State := do
  require (s.paused = false) .paused
  require (env.sender = s.distributor) .notDistributor
  require (minNotify ≤ amount) .belowMinimum
  let s ← pull (checkpoint s env.now 0) env
  inject s env.now .buyback env.received

def seedGenesis (s : State) (env : Env) (amount : Nat) : Tx State := do
  require (env.sender = s.owner) .notOwner
  require (s.paused = false) .paused
  require (s.genesisSeeded = false) .genesisSeeded
  require (minNotify ≤ amount) .belowMinimum
  let s ← pull (checkpoint { s with genesisSeeded := true } env.now 0) env
  inject s env.now .genesis env.received

def reallocateIdle (s : State) (env : Env) : Tx State := do
  require (env.sender = s.owner) .notOwner
  let s := checkpoint s env.now 0
  let idle := s.idleRewards
  require (0 < idle) .nothing
  startPeriod { s with idleRewards := 0 } env.now .buyback idle

/-! Steps. -/

inductive Action where
  | setDistributor (d : Address)
  | setStakeCap (cap : Nat)
  | setPaused (paused : Bool)
  | transferOwnership (newOwner : Address)
  | acceptOwnership
  | stake (amount : Nat)
  | unstake (amount : Nat)
  | claim
  | compound
  | notifyBuyback (amount : Nat)
  | seedGenesis (amount : Nat)
  | reallocateIdle
  /-- SOLON that arrives without a call. -/
  | donated (amount : Nat)

structure Step where
  env : Env
  action : Action

def step (s : State) (t : Step) : Tx State :=
  match t.action with
  | .setDistributor d => setDistributor s t.env d
  | .setStakeCap cap => setStakeCap s t.env cap
  | .setPaused paused => setPaused s t.env paused
  | .transferOwnership newOwner => transferOwnership s t.env newOwner
  | .acceptOwnership => acceptOwnership s t.env
  | .stake amount => stake s t.env amount
  | .unstake amount => unstake s t.env amount
  | .claim => do
    let (s, _) ← claim s t.env
    pure s
  | .compound => compound s t.env
  | .notifyBuyback amount => notifyBuyback s t.env amount
  | .seedGenesis amount => seedGenesis s t.env amount
  | .reallocateIdle => reallocateIdle s t.env
  | .donated amount => .ok { s with balance := s.balance + amount }

/-- Block times do not fall below the last update, and nobody calls from the zero address. -/
def timely (s : State) (t : Step) : Prop := s.lastUpdateTime ≤ t.env.now ∧ t.env.sender ≠ 0

instance (s : State) (t : Step) : Decidable (timely s t) := inferInstanceAs (Decidable (_ ∧ _))

end Solonpad.SolonStaking
