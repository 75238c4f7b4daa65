import Solonpad.LateCredit
import Solonpad.RewardSeals

/-!
The seal phases of `round/keeper.mjs` beside the chain they read: the reward tokens and the lanes of the staking
contract under one controller and one clock. A scan asks a source for its views one after another, and anything may
happen on the chain between two answers; then the watermark moves and the epochs to seal are known. A seal is a call
that anyone may make, so the sends are left out, with the budget and the entry source they wait for.
-/

namespace Solonpad.RoundKeeper

open Checked Eligibility Transition
open Chain (Address)
open RewardToken (precision)
open Staking (Key)

/-- The contracts, and the parameter of the keeper. -/
structure Config where
  token : Address → RewardToken.Config
  staking : Staking.Config
  governance : Address
  lookbackEpochs : Nat

inductive Blocked where
  | blocked
  deriving DecidableEq, Repr

abbrev Tx (α : Type) := Checked.Tx Blocked α

/-! The chain. -/

structure World where
  now : Nat
  controller : Controller
  tokens : Address → Option RewardToken.State
  staking : Staking.State

inductive Event where
  | wait (now : Nat)
  | govern (env : Eligibility.Env) (action : Eligibility.Action)
  | launch (address : Address)
  | token (address : Address) (env : RewardToken.Env) (call : RewardToken.Call)
  | staking (env : Staking.Env) (call : Staking.Call)

def World.step (c : Config) (w : World) : Event → Tx World
  | .wait now => do
    require (w.now ≤ now) .blocked
    pure { w with now := now }
  | .govern env action => do
    require (w.now ≤ env.now) .blocked
    let controller ← relay .blocked (Eligibility.step c.governance w.controller env action)
    pure { w with controller := controller, now := env.now }
  | .launch address => do
    require ((w.tokens address).isNone = true) .blocked
    pure { w with
      tokens := Function.update w.tokens address (some (RewardToken.deployed (c.token address) w.now)) }
  | .token address env call => do
    require (w.now ≤ env.now) .blocked
    match w.tokens address with
    | none => throw (.revert .blocked)
    | some token => do
      let token ← relay .blocked (RewardToken.step (c.token address) token w.controller env call)
      pure { w with tokens := Function.update w.tokens address (some token), now := env.now }
  | .staking env call => do
    require (w.now ≤ env.now) .blocked
    let staking ← relay .blocked (Staking.step c.staking w.staking w.controller env call)
    pure { w with staking := staking, now := env.now }

/-- Where a round's budget comes from: a token, or a lane of the staking contract. -/
inductive Source where
  | token (address : Address)
  | lane (key : Key)
  deriving DecidableEq

/-- A launched token, or a registered lane of kind 0. -/
def World.knows (w : World) : Source → Bool
  | .token address => (w.tokens address).isSome
  | .lane key => decide ((w.staking.lanes key).present = true ∧ (w.staking.lanes key).kind = 0)

/-- `rewardSealed`. -/
def World.rewardSealed (w : World) (epoch : Nat) : Source → Bool
  | .token address =>
    match w.tokens address with
    | some token => token.payouts.rewardSealed epoch
    | none => false
  | .lane key => (w.staking.lanes key).rewardSealed epoch

/-- `epochBudget` of a token, `creditTotal27` of a lane. -/
def World.credited (w : World) (epoch : Nat) : Source → Nat
  | .token address =>
    match w.tokens address with
    | some token => token.epochBudget epoch
    | none => 0
  | .lane key => (w.staking.lanes key).book.creditTotal27 epoch

/-- What a seal finds in an epoch, in whole units. -/
def World.budget (w : World) (epoch : Nat) : Source → Nat
  | .token address => w.credited epoch (.token address)
  | .lane key => w.credited epoch (.lane key) / precision

def World.nextRoundAt (w : World) (epoch : Nat) : Source → Option Nat
  | .token address => (w.tokens address).map fun token => RewardToken.nextRoundAt token epoch
  | .lane _ => none

structure CarryState where
  deposited27 : Nat
  released27 : Nat
  clock : Nat
  last : Nat
  pendingEvents : Nat

def World.carryState (w : World) (key : Key) : CarryState :=
  let l := w.staking.lanes key
  let c := l.book.stream
  ⟨c.deposited + c.pendingDeposit, c.released, c.clock, c.last,
    w.staking.weightEvents.length - l.cursors.left + l.events.length - l.cursors.right⟩

def World.carryPending (w : World) : Source → Bool
  | .token _ => false
  | .lane key =>
    let carry := w.carryState key
    decide (0 < carry.pendingEvents ∧ carry.released27 < carry.deposited27)

/-! The keeper. -/

/-- One source's turn in a seal phase, with the views it has been given so far. -/
structure Scan where
  source : Source
  today : Nat
  fromEpoch : Nat
  carryPending : Bool
  sealed : Nat → Option Bool
  credit : Nat → Option Nat
  /-- A call that fails answers null. -/
  nextRoundAt : Nat → Option (Option Nat)

def Scan.epochs (scan : Scan) : List Nat := List.range' scan.fromEpoch (scan.today - scan.fromEpoch)

def Scan.isFinal (scan : Scan) (epoch : Nat) : Bool :=
  scan.sealed epoch == some true || match scan.source with
    | .token _ => scan.credit epoch == some 0
    | .lane _ => (scan.credit epoch).any (fun credit => decide (credit < precision)) && !scan.carryPending

/-- `sealableEpochs`, and the same choice of `stakingSealPhase`. -/
def Scan.sealable (scan : Scan) (now epoch : Nat) : Bool :=
  scan.sealed epoch == some false && match scan.source with
    | .token _ => scan.credit epoch != some 0 &&
      !((scan.nextRoundAt epoch).join.any fun nextRoundAt => decide (now < nextRoundAt))
    | .lane _ => (scan.credit epoch).any (fun credit => decide (precision ≤ credit)) || scan.carryPending

def Scan.answered (scan : Scan) : Bool :=
  scan.epochs.all fun epoch => (scan.sealed epoch).isSome && (scan.credit epoch).isSome && match scan.source with
    | .token _ => (scan.nextRoundAt epoch).isSome
    | .lane _ => true

structure State where
  world : World
  nowSec : Nat
  /-- The records of `sealDone`: `through`. -/
  sealDone : Source → Option Int
  scan : Option Scan
  /-- What this tick has found to seal. -/
  schedule : List (Source × Nat)

def deployed (k : Controller) (now : Nat) : State where
  world := ⟨now, k, fun _ => none, .empty⟩
  nowSec := now
  sealDone := fun _ => none
  scan := none
  schedule := []

def State.today (s : State) : Nat := s.nowSec / day

def State.watermark (s : State) (source : Source) : Int := (s.sealDone source).getD (-1)

/-- The first epoch a scan looks at. -/
def State.fromEpoch (s : State) (lookbackEpochs firstEpoch : Nat) (source : Source) : Nat :=
  (max (max (firstEpoch : Int) (s.today - lookbackEpochs)) (s.watermark source + 1)).toNat

/-- A scan that has read the state of the carry, and no epoch yet. -/
def State.begin (s : State) (lookbackEpochs : Nat) (source : Source) (firstEpoch : Nat) : Scan where
  source := source
  today := s.today
  fromEpoch := s.fromEpoch lookbackEpochs firstEpoch source
  carryPending := s.world.carryPending source
  sealed := fun _ => none
  credit := fun _ => none
  nextRoundAt := fun _ => none

/-- The loop of `advanceWatermark`. -/
def advance (isFinal : Nat → Bool) : List Nat → Int → Int
  | [], through => through
  | epoch :: rest, through =>
    if (epoch : Int) = through + 1 ∧ isFinal epoch = true then advance isFinal rest epoch else through

def advanceWatermark (s : State) (scan : Scan) : State :=
  let start := max (s.watermark scan.source) (scan.fromEpoch - 1)
  let through := advance scan.isFinal scan.epochs start
  if start < through then
    { s with sealDone := Function.update s.sealDone scan.source (some through) }
  else s

inductive Action where
  | chain (event : Event)
  /-- A tick reads the clock. -/
  | tick
  /-- The turn of a source, whose first epoch the configuration or the discovery gives. -/
  | scan (source : Source) (firstEpoch : Nat)
  | viewSealed (epoch : Nat)
  | viewCredit (epoch : Nat)
  | viewNextRound (epoch : Nat) (answers : Bool)
  | advance
  /-- A call throws or the process ends. -/
  | crash

/-- A view of the source that is being scanned. -/
def view (s : State) (epoch : Nat) (given : Scan → Scan) : Tx State :=
  match s.scan with
  | none => throw (.revert .blocked)
  | some scan => do
    require (epoch ∈ scan.epochs) .blocked
    pure { s with scan := some (given scan) }

def step (c : Config) (s : State) : Action → Tx State
  | .chain event => do
    let world ← s.world.step c event
    pure { s with world := world }
  | .tick => do
    require (s.scan.isNone = true) .blocked
    pure { s with nowSec := s.world.now, schedule := [] }
  | .scan source firstEpoch => do
    require (s.scan.isNone = true ∧ s.world.knows source = true) .blocked
    pure { s with scan := some (s.begin c.lookbackEpochs source firstEpoch) }
  | .viewSealed epoch => view s epoch fun scan => { scan with
      sealed := Function.update scan.sealed epoch (some (s.world.rewardSealed epoch scan.source)) }
  | .viewCredit epoch => view s epoch fun scan => { scan with
      credit := Function.update scan.credit epoch (some (s.world.credited epoch scan.source)) }
  | .viewNextRound epoch answers => view s epoch fun scan => { scan with
      nextRoundAt := Function.update scan.nextRoundAt epoch
        (some (if answers = true then s.world.nextRoundAt epoch scan.source else none)) }
  | .advance =>
    match s.scan with
    | none => throw (.revert .blocked)
    | some scan => do
      require (scan.answered = true) .blocked
      let s := advanceWatermark s scan
      pure { s with
        scan := none
        schedule := s.schedule ++
          (scan.epochs.filter (scan.sealable s.nowSec)).map fun epoch => (scan.source, epoch) }
  | .crash => pure { s with scan := none }

def accepts (c : Config) (s : State) (action : Action) (after : State) : Prop := step c s action = .ok after

end Solonpad.RoundKeeper
