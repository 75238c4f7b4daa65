import Solonpad.HubOrders
import Mathlib

/-!
`RewardRoundManager.sol`: reward entries, and the rounds that spend slices of them. The manager's
own storage is here; whatever it asks of other contracts goes through `Peers`, over any state `W`
those contracts have, and a peer that reverts undoes the whole call. Every function that moves an
entry or a round is behind one reentrancy guard, so a call is one step. An entries hash is the
injective image of the slices it was built from. The chain id and the manager's own address, fixed
parts of an order id, are left out of it, as are the read-only scheduling hints.
-/

namespace Solonpad.Rounds

open Checked
open Chain (Address)
open Hub (RoundOrderId)

inductive RoundError where
  | required | modules | moduleCode | sourcePolicy | missingAssetRoute | invalidReceipt
  | costOrRunLimit | receiptDelta | invalidRefund | unverifiedResult | peer
  deriving DecidableEq, Repr

abbrev Tx (α : Type) := Checked.Tx RoundError α

abbrev EntryId := Nat
abbrev RoundId := Nat

/-- What a source says about an epoch and cohort. -/
structure Policy where
  assetId : Nat
  version : Nat
  pricePolicy : Nat
  mode : Nat
  deriving DecidableEq

structure Entry where
  source : Address
  pool : Nat
  epoch : Nat
  cohort : Nat
  budget18 : Nat
  creditTotal : Nat
  allocationId : Nat
  policy : Policy

structure Slice where
  entryId : EntryId
  budget18 : Nat
  deriving DecidableEq

inductive Status where
  | none | reserved | funding | funded | submitted | settled | quarantined | refunded
  | cancelledUnsent
  deriving DecidableEq, Repr

structure Round where
  entriesHash : Nat
  entryCount : Nat
  epochMin : Nat
  epochMax : Nat
  assetId : Nat
  adapterVersion : Nat
  asset : Address
  adapter : Address
  budget18 : Nat
  minRawOut : Nat
  deadline : Nat
  orderId : RoundOrderId
  sourceNonce : Nat
  delivered : Nat
  refunded : Nat
  status : Status
  submittedAt : Nat
  cancelRequested : Bool

/-- A route of the adapter registry. -/
structure Route where
  asset : Address
  underlying : Address
  hub : Address
  adapter : Address
  path : Nat
  chainId : Nat
  enabled : Bool
  fixedCost18 : Nat

structure Store where
  sourcePool : Address → Nat
  entries : EntryId → Entry
  sealedSource : Address × Nat × Nat → Bool
  nextEntryId : Nat
  available : EntryId → Nat
  pending : EntryId → Nat
  delivered : EntryId → Nat
  rounds : RoundId → Round
  slices : RoundId → List Slice
  nextRoundId : Nat
  orderRound : RoundOrderId → RoundId
  executionNonce : Nat → Nat
  orphanConsumed : RoundId → Bool
  batcher : Address
  capacity : Address
  sourceFactory : Address
  deskModule : Address
  stakingModule : Address
  rewardModulesConfigured : Bool

def Entry.blank : Entry := ⟨0, 0, 0, 0, 0, 0, 0, ⟨0, 0, 0, 0⟩⟩

def Round.blank : Round :=
  ⟨0, 0, 0, 0, 0, 0, 0, 0, 0, 0, 0, ⟨0, 0, 0, 0⟩, 0, 0, 0, .none, 0, false⟩

def Store.empty : Store where
  sourcePool := fun _ => 0
  entries := fun _ => Entry.blank
  sealedSource := fun _ => false
  nextEntryId := 0
  available := fun _ => 0
  pending := fun _ => 0
  delivered := fun _ => 0
  rounds := fun _ => Round.blank
  slices := fun _ => []
  nextRoundId := 0
  orderRound := fun _ => 0
  executionNonce := fun _ => 0
  orphanConsumed := fun _ => false
  batcher := 0
  capacity := 0
  sourceFactory := 0
  deskModule := 0
  stakingModule := 0
  rewardModulesConfigured := false

structure Config where
  governor : Address
  treasury : Address
  /-- Collision-free digests of a round's slices. -/
  digest : List Slice → Nat
  injective : Function.Injective digest

/-- The manager's native balance, and the vault's native and stock balances. -/
structure Balances (W : Type) where
  manager : W → Nat
  vault : W → Nat
  stock : W → Address → Nat

/-- What the other contracts answer in one call, and what it makes of their state: the registry,
the reward sources, the vault, the capacity controller, the batcher and the stock adapters. -/
structure Peers (W : Type) where
  hasCode : Address → Bool
  resolve : W → Nat → Nat → Tx Route
  rewardPolicy : W → Address → Nat → Nat → Tx Policy
  sealReward : W → Address → Nat → Nat → Tx (W × Nat × Nat × Nat)
  registerAllocation : W → EntryId → Entry → Address → Tx W
  lRun : W → Tx Nat
  reserveFor : W → RoundOrderId → Address → Nat → Tx W
  releaseUnsent : W → RoundOrderId → Tx W
  releaseFinalized : W → RoundOrderId → Tx Unit
  onRoundFinalized : Store → W → RoundId → Tx W
  startFunding : W → Address → RoundOrderId → Nat → Nat → Nat → Tx W
  funded : W → Address → RoundOrderId → Tx Bool
  submit : W → Address → RoundOrderId → Tx W
  requestCancel : W → Address → RoundOrderId → Tx W
  consumeResult : W → Address → RoundOrderId → Tx (W × Nat × Nat × Nat)
  returnRefund : W → Nat → Tx W
  sendOrphan : W → Address → Address → Nat → Tx W
  recordDelivery : W → EntryId → Nat → Tx W

structure State (W : Type) where
  store : Store
  world : W

structure Env where
  sender : Address
  now : Nat

def oneDay : Nat := 86400
def cancelAfter : Nat := 30 * 60

def Store.setRound (s : Store) (id : RoundId) (r : Round) : Store :=
  { s with rounds := Function.update s.rounds id r }

def Store.setStatus (s : Store) (id : RoundId) (status : Status) : Store :=
  s.setRound id { s.rounds id with status := status }

variable {W : Type} (c : Config) (b : Balances W) (x : Peers W)

/-! Wiring. -/

def configureRewardModules (s : Store) (env : Env) (desk staking : Address) : Tx Store := do
  require (env.sender = c.governor ∧ s.rewardModulesConfigured = false ∧ (desk ≠ 0 ∨ staking ≠ 0))
    .modules
  require ((desk = 0 ∨ x.hasCode desk = true) ∧ (staking = 0 ∨ x.hasCode staking = true)) .moduleCode
  pure { s with rewardModulesConfigured := true, deskModule := desk, stakingModule := staking }

def configureSourceFactory (s : Store) (env : Env) (factory : Address) : Tx Store := do
  require (env.sender = c.governor ∧ s.sourceFactory = 0 ∧ x.hasCode factory = true) .required
  pure { s with sourceFactory := factory }

def registerSource (s : Store) (env : Env) (source : Address) (pool : Nat) : Tx Store := do
  require ((env.sender = c.governor ∨ env.sender = s.sourceFactory ∨ env.sender = s.deskModule ∨
      env.sender = s.stakingModule) ∧ env.sender ≠ 0 ∧ x.hasCode source = true ∧ pool ≠ 0 ∧
    s.sourcePool source = 0) .required
  pure { s with sourcePool := Function.update s.sourcePool source pool }

def configureExecution (s : Store) (env : Env) (batcher capacity : Address) : Tx Store := do
  require (env.sender = c.governor ∧ s.batcher = 0 ∧ batcher ≠ 0 ∧ x.hasCode capacity = true) .required
  pure { s with batcher := batcher, capacity := capacity }

/-! Entries. -/

def sealEntry (s : State W) (source : Address) (epoch cohort : Nat) (policy : Policy) :
    Tx (State W) := do
  require (s.store.sourcePool source ≠ 0) .required
  let actual ← x.rewardPolicy s.world source epoch cohort
  require (actual = policy) .sourcePolicy
  let route ← x.resolve s.world policy.assetId policy.version
  require (x.hasCode route.asset = true ∧ x.hasCode route.adapter = true) .missingAssetRoute
  let key := (source, epoch, cohort)
  require (s.store.sealedSource key = false) .required
  let before := b.manager s.world
  let (world, budget, total, kind) ← x.sealReward s.world source epoch cohort
  let received ← sub (b.manager world) before
  require (kind = 0 ∧ 0 < budget ∧ 0 < total ∧ received = budget) .invalidReceipt
  let id := s.store.nextEntryId + 1
  let entry : Entry :=
    ⟨source, s.store.sourcePool source, epoch, cohort, budget, total, id, policy⟩
  let store := { s.store with
    sealedSource := Function.update s.store.sealedSource key true
    nextEntryId := id
    entries := Function.update s.store.entries id entry
    available := Function.update s.store.available id budget }
  let world ← x.registerAllocation world id entry route.asset
  pure ⟨store, world⟩

/-- `runLimit`. -/
def runLimit (s : State W) : Tx Nat :=
  if s.store.capacity = 0 then pure 0 else x.lRun s.world

/-- `minimumBudget`. -/
def minimumBudget (s : State W) (id : EntryId) : Tx Nat := do
  let e := s.store.entries id
  let route ← x.resolve s.world e.policy.assetId e.policy.version
  let cost := route.fixedCost18
  pure (if 5 * 10 ^ 17 < cost then cost * 200 else 100 * 10 ^ 18)

/-! Rounds. -/

/-- One pass of `_reserveSlices`: `taken` are the slices reserved before this one. -/
def reserveSlice (s : Store) (id : RoundId) (first : EntryId) (taken : List Slice) (slice : Slice) :
    Tx Store := do
  let e := s.entries slice.entryId
  require (e.source ≠ 0 ∧ e.policy = (s.entries first).policy ∧ 0 < slice.budget18 ∧
    slice.budget18 ≤ s.available slice.entryId ∧ s.pending slice.entryId = 0) .required
  require (∀ earlier ∈ taken, earlier.entryId ≠ slice.entryId) .required
  let available ← sub (s.available slice.entryId) slice.budget18
  let r := s.rounds id
  pure { s with
    available := Function.update s.available slice.entryId available
    pending := Function.update s.pending slice.entryId (s.pending slice.entryId + slice.budget18)
    slices := Function.update s.slices id (s.slices id ++ [slice])
    rounds := Function.update s.rounds id { r with
      budget18 := r.budget18 + slice.budget18
      entriesHash := c.digest (taken ++ [slice])
      epochMin := min e.epoch r.epochMin
      epochMax := max e.epoch r.epochMax } }

def reserveSlices (id : RoundId) (first : EntryId) : List Slice → List Slice → Store → Tx Store
  | _, [], s => pure s
  | taken, slice :: rest, s => do
    let s ← reserveSlice c s id first taken slice
    reserveSlices id first (taken ++ [slice]) rest s

/-- The requested slices, entry by entry. -/
def requested (ids amounts : List Nat) : List Slice := List.zipWith Slice.mk ids amounts

def reserveBatch (s : State W) (env : Env) (ids amounts : List Nat) (minRaw deadline : Nat) :
    Tx (State W) := do
  require (env.sender = s.store.batcher ∧ 0 < ids.length ∧ ids.length ≤ 64 ∧
    ids.length = amounts.length ∧ 0 < minRaw ∧ env.now < deadline) .required
  let first := ids.headD 0
  let policy := (s.store.entries first).policy
  let route ← x.resolve s.world policy.assetId policy.version
  require (route.enabled = true ∧ x.hasCode route.adapter = true ∧ x.hasCode route.asset = true)
    .required
  let id := s.store.nextRoundId + 1
  let store := { s.store with nextRoundId := id }.setRound id { s.store.rounds id with
    assetId := policy.assetId
    adapterVersion := policy.version
    asset := route.asset
    adapter := route.adapter
    minRawOut := minRaw
    deadline := deadline
    epochMin := 2 ^ 256 - 1
    entryCount := ids.length }
  let store ← reserveSlices c id first [] (requested ids amounts) store
  let minimum ← minimumBudget x ⟨store, s.world⟩ first
  let limit ← runLimit x ⟨store, s.world⟩
  let r := store.rounds id
  require (minimum ≤ r.budget18 ∧ r.budget18 ≤ limit) .costOrRunLimit
  let nonce := store.executionNonce r.entriesHash
  let orderId : RoundOrderId := ⟨r.entriesHash, minRaw, deadline, nonce⟩
  let store := { store with orderRound := Function.update store.orderRound orderId id }.setRound id
    { r with sourceNonce := nonce, orderId := orderId, status := .reserved }
  let world ← x.reserveFor s.world orderId route.underlying r.budget18
  pure ⟨store, world⟩

def start (s : State W) (env : Env) (id : RoundId) : Tx (State W) := do
  let r := s.store.rounds id
  require (r.status = .reserved ∧ env.now ≤ r.deadline) .required
  let store := { s.store.setStatus id .funding with
    executionNonce := Function.update s.store.executionNonce r.entriesHash
      (s.store.executionNonce r.entriesHash + 1) }
  let world ← x.startFunding s.world r.adapter r.orderId r.budget18 r.minRawOut r.deadline
  pure ⟨store, world⟩

def poke (s : State W) (id : RoundId) : Tx (State W) := do
  let r := s.store.rounds id
  require (r.status = .funding ∨ r.status = .quarantined ∧ r.submittedAt = 0) .required
  let funded ← x.funded s.world r.adapter r.orderId
  require (funded = true) .required
  pure ⟨s.store.setStatus id .funded, s.world⟩

def submit (s : State W) (env : Env) (id : RoundId) : Tx (State W) := do
  let r := s.store.rounds id
  require (r.status = .funded) .required
  let world ← x.submit s.world r.adapter r.orderId
  pure ⟨s.store.setRound id { r with status := .submitted, submittedAt := env.now }, world⟩

/-- The slices of a closing round leave `pending`; a `refund` makes them available again. -/
def closeSlices (refund : Bool) : List Slice → Store → Tx Store
  | [], s => pure s
  | slice :: rest, s => do
    let available := if refund then s.available slice.entryId + slice.budget18
      else s.available slice.entryId
    let pending ← sub (s.pending slice.entryId) slice.budget18
    closeSlices refund rest { s with
      available := Function.update s.available slice.entryId available
      pending := Function.update s.pending slice.entryId pending }

def cancelUnsent (s : State W) (id : RoundId) : Tx (State W) := do
  let r := s.store.rounds id
  require (r.status = .reserved) .required
  let store ← closeSlices true (s.store.slices id) (s.store.setStatus id .cancelledUnsent)
  let world ← x.releaseUnsent s.world r.orderId
  let world ← x.onRoundFinalized store world id
  pure ⟨store, world⟩

def requestCancel (s : State W) (env : Env) (id : RoundId) : Tx (State W) := do
  let r := s.store.rounds id
  require ((r.status = .submitted ∨ r.status = .quarantined) ∧ r.submittedAt ≠ 0 ∧
    r.submittedAt + cancelAfter ≤ env.now ∧ r.cancelRequested = false) .required
  let world ← x.requestCancel s.world r.adapter r.orderId
  pure ⟨s.store.setRound id { r with cancelRequested := true }, world⟩

/-! The delivered stock, by largest remainder. -/

structure Part where
  entryId : EntryId
  amount : Nat
  remainder : Nat
  awarded : Bool

/-- The unawarded part with the largest remainder, the smallest entry first. -/
def best : Nat → Option (Nat × Part) → List Part → Option (Nat × Part)
  | _, found, [] => found
  | i, found, part :: rest =>
    let better := match found with
      | none => true
      | some (_, other) => decide (other.remainder < part.remainder ∨
          part.remainder = other.remainder ∧ part.entryId < other.entryId)
    best (i + 1) (if part.awarded = false ∧ better = true then some (i, part) else found) rest

def award : Nat → List Part → Tx (List Part)
  | 0, parts => pure parts
  | k + 1, parts =>
    match best 0 none parts with
    | none => throw .bounds
    | some (i, part) => award k (parts.set i { part with amount := part.amount + 1, awarded := true })

def floors (raw total : Nat) (slices : List Slice) : List Part :=
  slices.map fun slice => ⟨slice.entryId, raw * slice.budget18 / total,
    raw * slice.budget18 % total, false⟩

def recordParts : List Part → State W → Tx (State W)
  | [], s => pure s
  | part :: rest, s => do
    let world ← x.recordDelivery s.world part.entryId part.amount
    recordParts rest ⟨{ s.store with
      delivered := Function.update s.store.delivered part.entryId
        (s.store.delivered part.entryId + part.amount) }, world⟩

/-- `_allocate`. -/
def allocate (s : State W) (id : RoundId) (raw : Nat) : Tx (State W) := do
  let parts := floors raw (s.store.rounds id).budget18 (s.store.slices id)
  let left ← sub raw (parts.map Part.amount).sum
  let parts ← award left parts
  recordParts x parts s

def finalize (s : State W) (id : RoundId) : Tx (State W) := do
  let r := s.store.rounds id
  require (r.status = .submitted ∨ r.status = .quarantined ∨ r.status = .funding ∨
    r.status = .funded ∨ r.status = .refunded ∧ s.store.orphanConsumed id = false) .required
  let beforeStock := b.stock s.world r.asset
  let beforeNative := b.vault s.world
  let (world, outcome, raw, refund) ← x.consumeResult s.world r.adapter r.orderId
  require (b.stock world r.asset = beforeStock + raw ∧ b.vault world = beforeNative + refund)
    .receiptDelta
  if outcome = 0 then do
    require (raw = 0 ∧ refund = 0 ∧ r.status ≠ .refunded) .required
    pure ⟨s.store, world⟩
  else if outcome = 2 then do
    require (r.status ≠ .refunded ∧ raw = 0 ∧ refund = r.budget18) .invalidRefund
    let store := s.store.setRound id { r with refunded := refund, status := .refunded }
    let store ← closeSlices true (store.slices id) store
    let world ← x.returnRefund world refund
    x.releaseFinalized world r.orderId
    let world ← x.onRoundFinalized store world id
    pure ⟨store, world⟩
  else do
    require (outcome = 1 ∧ r.submittedAt ≠ 0 ∧ r.minRawOut ≤ raw ∧ refund = 0) .unverifiedResult
    if r.status = .refunded then do
      let store := { s.store with orphanConsumed := Function.update s.store.orphanConsumed id true }
      let world ← x.sendOrphan world r.asset c.treasury raw
      pure ⟨store, world⟩
    else do
      let store := s.store.setRound id { r with delivered := raw, status := .settled }
      let store ← closeSlices false (store.slices id) store
      let s ← allocate x ⟨store, world⟩ id raw
      x.releaseFinalized s.world r.orderId
      let world ← x.onRoundFinalized s.store s.world id
      pure ⟨s.store, world⟩

def applyResult (s : State W) (orderId : RoundOrderId) : Tx (State W) := do
  let id := s.store.orderRound orderId
  require (id ≠ 0) .required
  finalize c b x s id

/-! The system. -/

inductive Action where
  | configureRewardModules (desk staking : Address)
  | configureSourceFactory (factory : Address)
  | registerSource (source : Address) (pool : Nat)
  | configureExecution (batcher capacity : Address)
  | sealEntry (source : Address) (epoch cohort : Nat) (policy : Policy)
  | reserveBatch (ids amounts : List Nat) (minRaw deadline : Nat)
  | start (id : RoundId)
  | poke (id : RoundId)
  | submit (id : RoundId)
  | cancelUnsent (id : RoundId)
  | requestCancel (id : RoundId)
  | applyResult (orderId : RoundOrderId)
  | finalize (id : RoundId)

/-- A call that touches the manager's own storage only. -/
def State.wired (s : State W) (call : Store → Tx Store) : Tx (State W) := do
  let store ← call s.store
  pure ⟨store, s.world⟩

def step (s : State W) (env : Env) (action : Action) : Tx (State W) :=
  match action with
  | .configureRewardModules desk staking =>
    s.wired (configureRewardModules c x · env desk staking)
  | .configureSourceFactory factory => s.wired (configureSourceFactory c x · env factory)
  | .registerSource source pool => s.wired (registerSource c x · env source pool)
  | .configureExecution batcher capacity => s.wired (configureExecution c x · env batcher capacity)
  | .sealEntry source epoch cohort policy => sealEntry b x s source epoch cohort policy
  | .reserveBatch ids amounts minRaw deadline => reserveBatch c x s env ids amounts minRaw deadline
  | .start id => start x s env id
  | .poke id => poke x s id
  | .submit id => submit x s env id
  | .cancelUnsent id => cancelUnsent x s id
  | .requestCancel id => requestCancel x s env id
  | .applyResult orderId => applyResult c b x s orderId
  | .finalize id => finalize c b x s id

/-- Peers take nothing of the manager's money but the budget a round sends, and the vault's
refund brings its amount. -/
structure Spares : Prop where
  registerAllocation : ∀ w id entry asset after,
    x.registerAllocation w id entry asset = .ok after → b.manager w ≤ b.manager after
  reserveFor : ∀ w orderId asset amount after,
    x.reserveFor w orderId asset amount = .ok after → b.manager w ≤ b.manager after
  releaseUnsent : ∀ w orderId after,
    x.releaseUnsent w orderId = .ok after → b.manager w ≤ b.manager after
  onRoundFinalized : ∀ store w id after,
    x.onRoundFinalized store w id = .ok after → b.manager w ≤ b.manager after
  startFunding : ∀ w adapter orderId budget minRaw deadline after,
    x.startFunding w adapter orderId budget minRaw deadline = .ok after →
      b.manager w ≤ b.manager after + budget
  submit : ∀ w adapter orderId after,
    x.submit w adapter orderId = .ok after → b.manager w ≤ b.manager after
  requestCancel : ∀ w adapter orderId after,
    x.requestCancel w adapter orderId = .ok after → b.manager w ≤ b.manager after
  consumeResult : ∀ w adapter orderId after outcome raw refund,
    x.consumeResult w adapter orderId = .ok (after, outcome, raw, refund) →
      b.manager w ≤ b.manager after
  returnRefund : ∀ w amount after,
    x.returnRefund w amount = .ok after → b.manager w + amount ≤ b.manager after
  sendOrphan : ∀ w asset treasury raw after,
    x.sendOrphan w asset treasury raw = .ok after → b.manager w ≤ b.manager after
  recordDelivery : ∀ w id raw after,
    x.recordDelivery w id raw = .ok after → b.manager w ≤ b.manager after

/-- The manager's turns: a call by anyone, with the peers as they are then, or a peer's own
business. -/
inductive Turn (s : State W) : State W → Prop where
  | call (x : Peers W) (env : Env) (action : Action) (spares : Spares b x) {after : State W}
      (taken : step c b x s env action = .ok after) : Turn s after
  | world (world : W) (spares : b.manager s.world ≤ b.manager world) : Turn s ⟨s.store, world⟩

end Solonpad.Rounds
