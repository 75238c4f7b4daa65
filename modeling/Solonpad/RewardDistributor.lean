import Solonpad.PayoutVault

/-!
`RewardDistributor.sol`: anyone may walk a queue's participants, a page at a time. Each account is
staged and then paid, each in a call with an allowance of its own; a payment that fails is left for
later and the walk goes on, a staging that fails stops it. Gas is what the environment says was left
at each turn of a loop. A queue's key is its arguments; of the events a batch gives out, each visit
keeps what was staged and paid.
-/

namespace Solonpad.Distributor

open Checked
open Chain (Address)

inductive DistributorError where
  | policy | timelock | source | queueAsset | queue | pageGas | scanSchedule | scopedParticipant
  | claimPage | claimGas | peer
  deriving DecidableEq, Repr

abbrev Tx (α : Type) := Checked.Tx DistributorError α

structure Queue where
  source : Address
  asset : Address
  epoch : Nat
  revision : Nat
  upperBound : Nat
  cursor : Nat

/-- What `openQueue` hashes. -/
structure QueueKey where
  source : Address
  poolId : Nat
  settlementKind : Nat
  epoch : Nat
  asset : Address
  revision : Nat
  deriving DecidableEq

/-- How an account's visit ends; where it was staged, the amount stands for its `Staged` line. -/
inductive Outcome where
  | paid | skippedSmall | deliveryBlocked | stageBlocked
  deriving DecidableEq, Repr

/-- One account of a batch: what was staged for it, what became of its payment, and how much it got. -/
structure Visit where
  account : Address
  staged : Nat
  outcome : Outcome
  paid : Nat
  deriving DecidableEq

structure Store where
  queues : List Queue
  nextScanAt : Nat → Nat
  scanDay : Nat → Nat
  queued : QueueKey → Bool
  scopedParticipantIndex : Address → Bool
  estimatedCostPerRecipient : Nat
  oracleMaxAge : Nat
  pendingCost : Nat
  pendingMaxAge : Nat
  policyReadyAt : Nat

def Store.empty : Store where
  queues := []
  nextScanAt := fun _ => 0
  scanDay := fun _ => 0
  queued := fun _ => false
  scopedParticipantIndex := fun _ => false
  estimatedCostPerRecipient := 0
  oracleMaxAge := 2 * 3600
  pendingCost := 0
  pendingMaxAge := 0
  policyReadyAt := 0

structure Config where
  self : Address
  governance : Address

/-- What sources and the oracle show. -/
structure Views (W : Type) where
  queueAsset : W → Address → Nat → Tx Address
  queueSnapshot : W → Address → Nat → Tx (Nat × Nat)
  poolId : W → Address → Tx Nat
  settlementKind : W → Address → Tx Nat
  declaresScoped : W → Address → Bool
  participantAt : W → Address → Nat → Tx Address
  scopedParticipantAt : W → Address → Nat → Nat → Tx Address
  priceUSD18 : W → Address → Tx (Nat × Nat)

/-- The gas at one turn of a loop: whether too little is left to go on, and whether the allowances
of the two calls are enough. -/
structure Gas where
  low : Bool
  stage : Bool
  pay : Bool

structure Env where
  sender : Address
  now : Nat
  enough : Bool
  gas : Nat → Gas

structure State (W : Type) where
  store : Store
  payout : Payout.State W

def minutes : Nat := 60
def day : Nat := 86400

variable {W : Type} (c : Config) (p : Payout.Config) (b : Payout.Balance W) (x : Payout.Peers W)
  (v : Views W)

/-! Policy and queues. -/

def schedulePolicy (s : Store) (env : Env) (cost maxAge : Nat) : Tx Store := do
  require (env.sender = c.governance ∧ 0 < maxAge ∧ cost ≤ (2 ^ 256 - 1) / 200) .policy
  pure { s with pendingCost := cost, pendingMaxAge := maxAge, policyReadyAt := env.now + 2 * day }

def applyPolicy (s : Store) (env : Env) : Tx Store := do
  require (s.policyReadyAt ≠ 0 ∧ s.policyReadyAt ≤ env.now) .timelock
  pure { s with
    estimatedCostPerRecipient := s.pendingCost, oracleMaxAge := s.pendingMaxAge, policyReadyAt := 0 }

def minimumUSD18 (s : Store) : Nat := max (2 * 10 ^ 18) (200 * s.estimatedCostPerRecipient)

def openQueue (s : State W) (source : Address) (epoch : Nat) (asset : Address) : Tx Store := do
  require (s.payout.store.trustedSource source = true) .source
  let queueAsset ← v.queueAsset s.payout.world source epoch
  require (asset ≠ 0 ∧ queueAsset = asset) .queueAsset
  let (upper, revision) ← v.queueSnapshot s.payout.world source epoch
  let poolId ← v.poolId s.payout.world source
  let kind ← v.settlementKind s.payout.world source
  let key : QueueKey := ⟨source, poolId, kind, epoch, asset, revision⟩
  require (s.store.queued key = false ∧ revision ≠ 0) .queue
  let declared := v.declaresScoped s.payout.world source
  pure { s.store with
    queued := Function.update s.store.queued key true
    scopedParticipantIndex := if declared = true then
        Function.update s.store.scopedParticipantIndex source true
      else s.store.scopedParticipantIndex
    queues := s.store.queues ++ [⟨source, asset, epoch, revision, upper, 0⟩] }

/-- `_participantAt`. -/
def participantAt (s : Store) (w : W) (source : Address) (epoch index : Nat) : Tx Address :=
  if s.scopedParticipantIndex source = true then v.scopedParticipantAt w source epoch index
  else v.participantAt w source index

/-! Batches. -/

/-- `attempt`. -/
def attempt (s : Store) (now : Nat) (payout : Payout.State W) (account asset : Address) :
    Tx (Payout.State W × Nat) := do
  let (price, updatedAt) ← v.priceUSD18 payout.world asset
  if price = 0 ∨ now < updatedAt ∨ s.oracleMaxAge < now - updatedAt then pure (payout, 0)
  else if payout.store.readyRaw account asset * price / 10 ^ 18 < minimumUSD18 s then pure (payout, 0)
  else relay .peer (Payout.claimFor p b x payout c.self account asset)

/-- What is left of a batch once its loop stops. -/
structure Walk (W : Type) where
  payout : Payout.State W
  cursor : Nat
  visits : List Visit
  blocked : Bool

/-- The loop of `batchDistribute`, with as many accounts to go as the page has left. -/
def batchLoop (s : Store) (env : Env) (q : Queue) : Nat → Nat → Nat → Payout.State W → Tx (Walk W)
  | 0, _, cursor, payout => pure ⟨payout, cursor, [], false⟩
  | n + 1, i, cursor, payout =>
    if (env.gas i).low = true then pure ⟨payout, cursor, [], false⟩
    else do
      let account ← participantAt v s payout.world q.source q.epoch cursor
      match attempted (env.gas i).stage (Payout.stageCredit p b x payout q.source account [q.epoch] q.asset) with
      | none => pure ⟨payout, cursor, [⟨account, 0, .stageBlocked, 0⟩], true⟩
      | some (payout, staged) =>
        match attempted (env.gas i).pay (attempt c p b x v s env.now payout account q.asset) with
        | none => do
          let walk ← batchLoop s env q n (i + 1) (cursor + 1) payout
          pure { walk with visits := ⟨account, staged, .deliveryBlocked, 0⟩ :: walk.visits }
        | some (payout, paid) => do
          let walk ← batchLoop s env q n (i + 1) (cursor + 1) payout
          let outcome := if paid ≠ 0 then Outcome.paid else .skippedSmall
          pure { walk with visits := ⟨account, staged, outcome, paid⟩ :: walk.visits }

def batchDistribute (s : State W) (env : Env) (id maxAccounts maxEpochs gasBudget : Nat) :
    Tx (State W × List Visit) := do
  require (maxAccounts ≠ 0 ∧ maxAccounts ≤ 32 ∧ maxEpochs ≠ 0 ∧ maxEpochs ≤ 20 ∧ 300000 ≤ gasBudget ∧
    gasBudget ≤ 2000000) .pageGas
  require (10 * minutes ≤ env.now % day ∧ s.store.nextScanAt id ≤ env.now) .scanSchedule
  match s.store.queues[id]? with
  | none => throw .bounds
  | some q =>
    if env.enough = false then pure (s, [])
    else do
      let start := if q.cursor = q.upperBound then 0 else q.cursor
      let store := { s.store with scanDay := Function.update s.store.scanDay id (env.now / day) }
      let stop := min (start + maxAccounts) q.upperBound
      let walk ← batchLoop c p b x v store env q (stop - start) 0 start s.payout
      let store := { store with queues := store.queues.set id { q with cursor := walk.cursor } }
      if walk.blocked = true ∨ walk.cursor = start ∧ q.upperBound ≠ 0 then
        pure (⟨store, walk.payout⟩, walk.visits)
      else pure (⟨{ store with
        nextScanAt := Function.update store.nextScanAt id (env.now + 15 * minutes) }, walk.payout⟩,
          walk.visits)

/-! Claims. -/

/-- One asset of a claim: what was staged in it, and what it paid, none where that was blocked. -/
structure Claimed where
  asset : Address
  staged : Nat
  paid : Option Nat

/-- The inner loop of `claim`, with what was staged and whether it came to the end of the page. -/
def stageEpochs (env : Env) (source asset : Address) : Nat → List Nat → Payout.State W →
    Payout.State W × Nat × Bool
  | _, [], payout => (payout, 0, true)
  | i, epoch :: rest, payout =>
    if (env.gas i).low = true then (payout, 0, false)
    else
      match attempted (env.gas i).stage (Payout.stageCredit p b x payout source env.sender [epoch] asset) with
      | none => stageEpochs env source asset (i + 1) rest payout
      | some (payout, staged) =>
        let (payout, more, done) := stageEpochs env source asset (i + 1) rest payout
        (payout, staged + more, done)

/-- The outer loop, with what each asset came to and whether the page was done. -/
def claimLoop (env : Env) (source : Address) (epochs : List Nat) : Nat → List Address →
    Payout.State W → Payout.State W × List Claimed × Bool
  | _, [], payout => (payout, [], true)
  | i, asset :: rest, payout =>
    let (payout, staged, done) := stageEpochs p b x env source asset i epochs payout
    let i := i + epochs.length
    if done = false ∨ (env.gas i).low = true then (payout, [⟨asset, staged, none⟩], false)
    else
      match attempted (env.gas i).pay (Payout.claimFor p b x payout c.self env.sender asset) with
      | none =>
        let (payout, claimed, done) := claimLoop env source epochs (i + 1) rest payout
        (payout, ⟨asset, staged, none⟩ :: claimed, done)
      | some (payout, paid) =>
        let (payout, claimed, done) := claimLoop env source epochs (i + 1) rest payout
        (payout, ⟨asset, staged, some paid⟩ :: claimed, done)

def claim (s : State W) (env : Env) (source : Address) (epochs : List Nat) (assets : List Address) :
    Tx (State W × List Claimed × Bool) := do
  require (s.payout.store.trustedSource source = true ∧ epochs.length ≤ 20 ∧ assets.length ≤ 4) .claimPage
  require (assets ≠ [] → env.enough = true) .claimGas
  let (payout, claimed, done) := claimLoop c p b x env source epochs 0 assets s.payout
  pure (⟨s.store, payout⟩, claimed, done)

/-! The distributor. -/

inductive Action where
  | schedulePolicy (cost maxAge : Nat)
  | applyPolicy
  | openQueue (source : Address) (epoch : Nat) (asset : Address)
  | batchDistribute (id maxAccounts maxEpochs gasBudget : Nat)
  | claim (source : Address) (epochs : List Nat) (assets : List Address)

/-- A call that touches the distributor's own storage only. -/
def State.own (s : State W) (call : Tx Store) : Tx (State W) := do
  let store ← call
  pure ⟨store, s.payout⟩

def step (s : State W) (env : Env) (action : Action) : Tx (State W) :=
  match action with
  | .schedulePolicy cost maxAge => s.own (schedulePolicy c s.store env cost maxAge)
  | .applyPolicy => s.own (applyPolicy s.store env)
  | .openQueue source epoch asset => s.own (openQueue v s source epoch asset)
  | .batchDistribute id maxAccounts maxEpochs gasBudget => do
    let (s, _) ← batchDistribute c p b x v s env id maxAccounts maxEpochs gasBudget
    pure s
  | .claim source epochs assets => do
    let (s, _) ← claim c p b x s env source epochs assets
    pure s

/-- The payout vault and the distributor, called by anyone while the world goes on. -/
inductive Turn (s : State W) : State W → Prop where
  | payout (x : Payout.Peers W) (env : Payout.Env) (action : Payout.Action) (spares : Payout.Spares p b x)
      {after : Payout.State W} (taken : Payout.step p b x s.payout env action = .ok after) :
      Turn s ⟨s.store, after⟩
  | call (x : Payout.Peers W) (v : Views W) (env : Env) (action : Action)
      (spares : Payout.Spares p b x) {after : State W} (taken : step c p b x v s env action = .ok after) :
      Turn s after
  | world (world : W) (spares : ∀ asset, b s.payout.world asset p.self ≤ b world asset p.self) :
      Turn s ⟨s.store, ⟨s.payout.store, world⟩⟩

def Run : State W → State W → Prop := Relation.ReflTransGen (Turn c p b)

end Solonpad.Distributor
