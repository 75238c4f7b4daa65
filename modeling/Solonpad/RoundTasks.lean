import Solonpad.RoundTurns
import Solonpad.TaskCalls

/-!
`round/keeper.mjs` beside the contracts: what it reads, what it decides from that, and the journal its sender answers
from. A tick is one read or one transaction at a time; between any two of them anyone may call the contracts,
transactions are mined and the keeper may die. What a phase picks next (a source and epoch to seal, a round, a group, a
plan for a batch) is left open. Its other transactions are among those of the account and of others, and of a round's
funding through Relay nothing is said.
-/

namespace Solonpad.RoundTasks

open Checked Journal Rounds
open Chain (Address)
open Hub (RoundOrderId)
open RoundChain (System Call World Turn Spared)
open StockAdapter (SignedQuote)

variable {V : Type}

/-! Requests. -/

/-- A planned order with its signed quote. -/
structure Plan where
  ids : List EntryId
  maxBudget : Nat
  adapter : Address
  quote : SignedQuote
  deriving DecidableEq

inductive RoundAction where
  | poke | submit | cancelUnsent | requestCancel | finalize
  deriving DecidableEq, Repr

/-- What `tx.call` is asked for. -/
inductive Request where
  | sealEntry (source : Address) (epoch : Nat) (policy : Policy)
  | enqueue (id : EntryId)
  /-- `n` entries of the group, from where its cursor was read. -/
  | advance (group : Policy) (cursor n : Nat)
  | depositFees (adapter : Address) (orderId : RoundOrderId) (fees18 value : Nat)
  | executeAndStart (plan : Plan)
  /-- With the status it was decided at. -/
  | round (id : RoundId) (action : RoundAction) (status : Status)
  deriving DecidableEq

/-- Task keys, by what each is the text of. -/
inductive Key where
  | sealEntry (source : Address) (epoch : Nat)
  | enqueue (id : EntryId)
  | advance (group : Policy) (cursor : Nat)
  | depositFees (adapter : Address) (orderId : RoundOrderId) (fees18 : Nat)
  | start (orderId : RoundOrderId) (fees18 : Nat)
  | round (id : RoundId) (action : RoundAction) (status : Status)
  deriving DecidableEq

def Request.key : Request → Key
  | .sealEntry source epoch _ => .sealEntry source epoch
  | .enqueue id => .enqueue id
  | .advance group cursor _ => .advance group cursor
  | .depositFees adapter orderId fees18 _ => .depositFees adapter orderId fees18
  | .executeAndStart plan => .start plan.quote.orderId plan.quote.fees18
  | .round id action status => .round id action status

/-- The call that the keeper's account makes. -/
def Request.call (keeper : Address) (now : Nat) : Request → Call
  | .sealEntry source epoch policy => .manager ⟨keeper, now⟩ (.sealEntry source epoch 0 policy)
  | .enqueue id => .enqueue id
  | .advance group _ n => .advance group n
  | .depositFees adapter orderId _ value => .depositFees adapter orderId value
  | .executeAndStart plan => .executeAndStart now plan.ids plan.maxBudget plan.quote
  | .round id .poke _ => .manager ⟨keeper, now⟩ (.poke id)
  | .round id .submit _ => .manager ⟨keeper, now⟩ (.submit id)
  | .round id .cancelUnsent _ => .manager ⟨keeper, now⟩ (.cancelUnsent id)
  | .round id .requestCancel _ => .manager ⟨keeper, now⟩ (.requestCancel id)
  | .round id .finalize _ => .manager ⟨keeper, now⟩ (.finalize id)

/-! Decisions. -/

structure Params where
  advanceThreshold : Nat
  fundingAlertSec : Nat
  quarantineAfterSec : Nat
  /-- `none`: only alerts. -/
  cancelAfterSec : Option Nat

/-- The defaults. -/
def roundDefaults : Params := ⟨16, 15 * 60, 6 * 3600, none⟩

def maxBatchEntries : Nat := 64
def cancelMinAge : Nat := 30 * 60

structure Ctx where
  now : Nat
  funded : Bool
  dispatched : Bool
  dispatchedAt : Nat
  /-- The status of a probed result; a probe that fails is null. -/
  result : Option Nat
  orphanConsumed : Bool

inductive Decision where
  | call (action : RoundAction)
  | start | dispatchFunding | alert | wait | done
  deriving DecidableEq, Repr

def nextRoundAction (p : Params) (round : Round) (ctx : Ctx) : Decision :=
  match round.status with
  | .reserved => if round.deadline < ctx.now then .call .cancelUnsent else .start
  | .funding =>
    if ctx.result = some 2 then .call .finalize
    else if ctx.funded then .call .poke
    else if ¬ ctx.dispatched then .dispatchFunding
    else if ctx.dispatchedAt + p.fundingAlertSec < ctx.now then .alert
    else .wait
  | .funded => if ctx.result = some 2 then .call .finalize else .call .submit
  | .submitted | .quarantined =>
    if round.status = .quarantined ∧ round.submittedAt = 0 then
      if ctx.funded then .call .poke
      else if ctx.result = some 2 then .call .finalize
      else .wait
    else if ctx.result = some 1 ∨ ctx.result = some 2 then .call .finalize
    else if p.cancelAfterSec.any (fun sec => decide (round.cancelRequested = false ∧
        round.submittedAt + max cancelMinAge sec ≤ ctx.now)) then .call .requestCancel
    else if round.submittedAt + p.quarantineAfterSec < ctx.now then .alert
    else .wait
  | .refunded => if ctx.orphanConsumed = false ∧ ctx.result = some 1 then .call .finalize else .done
  | .settled | .cancelledUnsent => .done
  | .none => .wait

/-- Of the window from the cursor on, how many entries to skip. -/
def shouldAdvance (threshold : Nat) (skippable : List Bool) : Nat :=
  let n := (skippable.takeWhile id).length
  if threshold ≤ n then min n maxBatchEntries else 0

/-! The keeper. -/

structure Signed where
  request : Request
  nonce : Nat
  deriving DecidableEq

inductive Phase where
  | seals | enqueues | rounds | batches
  /-- The rounds once more. -/
  | again
  deriving DecidableEq, Repr

/-- One round, with what was read of it so far. -/
structure RoundView where
  id : RoundId
  round : Round
  funded : Option Bool
  result : Option (Option Nat)
  orphan : Option Bool

/-- One group: its ids, its cursor, and which entries of the window can be skipped. -/
structure GroupView where
  group : Policy
  ids : List EntryId
  cursor : Nat
  skippable : List Bool

/-- Where a tick goes on from an answer. -/
inductive After where
  | go (phase : Phase)
  | enqueueing (id last : EntryId)
  | starting (plan : Plan)
  deriving DecidableEq

inductive Stage where
  | idle
  | reconciling
  | working (phase : Phase)
  | enqueueing (id last : EntryId)
  | round (phase : Phase) (view : RoundView)
  | grouping (group : Policy) (ids : List EntryId)
  | group (view : GroupView)
  | planned (plan : Plan)
  /-- In `tx.call`, nothing signed. -/
  | asking (r : Request) (next : After)
  | waiting (r : Request) (tx : Signed) (next : After)

structure State (V : Type) where
  chain : RoundChain.State V
  tasks : Key → Option (Journal.Task Signed)
  nextNonce : Nat
  /-- Every transaction signed so far. -/
  signed : List Signed
  /-- Those that were mined and did not revert. -/
  mined : List Signed
  stage : Stage

def deployed (rest : V) : State V := ⟨RoundChain.deployed rest, fun _ => none, 0, [], [], .idle⟩

inductive Action where
  | chain (call : Call)
  | tick
  /-- `reconcileAll`, of one task in flight. -/
  | settle (key : Key) (outcome : Outcome) (ms : Nat)
  | settled
  /-- The phase is over. -/
  | pass
  | sealEpoch (source : Address) (epoch : Nat) (policy : Policy)
  | viewQueue
  | enqueueNext
  | viewRound (id : RoundId)
  | viewFunded
  | viewResult (proven : Bool)
  | viewOrphan
  | decide (now dispatchedAt : Nat) (dispatched : Bool)
  | viewGroup (group : Policy)
  | viewCursor
  | viewEntry
  | advance
  | plan (plan : Plan)
  | viewFees
  /-- No signer for the quote. -/
  | unsigned
  | ask (outcome : Outcome) (nonce ms : Nat)
  | await (outcome : Outcome) (ms : Nat)
  | crash
  | mine (tx : Signed) (now : Nat) (success : Bool)
  /-- Another transaction of the account. -/
  | mineOther

variable (y : System V) (p : Params) (keeper : Address)

def State.setTask (st : State V) (key : Key) (task : Option (Journal.Task Signed)) : State V :=
  { st with tasks := Function.update st.tasks key task }

/-- A receipt of success is there. -/
def State.Received (st : State V) (tx : Signed) : Prop := tx ∈ st.mined

instance (st : State V) : DecidablePred st.Received := fun tx => inferInstanceAs (Decidable (tx ∈ st.mined))

def After.stage (next : After) (confirmed : Bool) : Stage :=
  match next with
  | .go phase => .working phase
  | .enqueueing id last => if confirmed then .enqueueing id last else .working .rounds
  | .starting plan => if confirmed then .asking (.executeAndStart plan) (.go .batches) else .working .batches

/-- Where `tx.call` leaves the keeper. -/
def After.next (next : After) (r : Request) : Answer Signed → Stage
  | .other => next.stage false
  | .sent tx => .waiting r tx next
  | .confirmed _ => next.stage true

/-- `nextToEnqueue` and `nextEntryId`. -/
def viewQueue (chain : RoundChain.State V) : Stage := .enqueueing chain.world.1.nextToEnqueue chain.store.nextEntryId

/-- `groupsWithIds`, of one group. -/
def groupIds (chain : RoundChain.State V) (group : Policy) : List EntryId :=
  (List.range' 1 (min chain.store.nextEntryId (chain.world.1.nextToEnqueue - 1))).filter fun id =>
    Batcher.groupKey chain.store id = group

/-- `probeResult`: a static call of the adapter, as the manager. -/
def probeResult (chain : RoundChain.State V) (round : Round) (proven : Bool) : Option Nat :=
  match proven, StockAdapter.consumeResult (y.peers round.adapter) (y.adapters round.adapter)
      (chain.world.2.adapters round.adapter) chain.world.2.rest (y.adapters round.adapter).coordinator round.orderId with
  | true, .ok (_, _, status, _, _) => some status
  | _, _ => none

def RoundView.needsFunded (v : RoundView) : Bool :=
  decide (v.round.status = .funding ∨ v.round.status = .quarantined ∧ v.round.submittedAt = 0)

def RoundView.needsProbe (v : RoundView) : Bool :=
  decide (v.round.status = .funding ∨ v.round.status = .funded ∨ v.round.status = .submitted ∨
    v.round.status = .quarantined ∨ v.round.status = .refunded)

/-- What `progressRound` has read is all it needs. -/
def RoundView.complete (v : RoundView) : Bool :=
  (v.funded.isSome || !v.needsFunded) && (v.result.isSome || !v.needsProbe) &&
    (v.orphan.isSome || decide (v.round.status ≠ .refunded))

def RoundView.ctx (v : RoundView) (now dispatchedAt : Nat) (dispatched : Bool) : Ctx where
  now := now
  funded := v.needsFunded && v.funded.getD false
  dispatched := dispatched
  dispatchedAt := dispatchedAt
  result := if v.needsProbe then v.result.join else none
  orphanConsumed := decide (v.round.status = .refunded) && v.orphan.getD false

/-- `progressRound`, once it has read all. -/
def RoundView.goes (v : RoundView) (phase : Phase) (ctx : Ctx) : Stage :=
  match nextRoundAction p v.round ctx with
  | .call action => .asking (.round v.id action v.round.status) (.go phase)
  | _ => .working phase

def GroupView.window (v : GroupView) : List EntryId := (v.ids.drop v.cursor).take maxBatchEntries

/-- The head of a group is advanced, or the group goes on to its batch. -/
def GroupView.goes (v : GroupView) : Stage :=
  match shouldAdvance p.advanceThreshold v.skippable with
  | 0 => .working .batches
  | n => .asking (.advance v.group v.cursor n) (.go .batches)

/-- `startBatch`, from `feeBalance` on. -/
def Plan.goes (plan : Plan) (have' : Nat) : Stage :=
  if have' < plan.quote.fees18 then
    .asking (.depositFees plan.adapter plan.quote.orderId plan.quote.fees18 (plan.quote.fees18 - have'))
      (.starting plan)
  else .asking (.executeAndStart plan) (.go .batches)

def Phase.next : Phase → Stage
  | .seals => .working .enqueues
  | .enqueues => .working .rounds
  | .rounds => .working .batches
  | .batches => .working .again
  | .again => .idle

/-- Where one step of a tick's own leads, when it is a read or a decision. -/
def go (st : State V) (action : Action) : Option Stage :=
  match action, st.stage with
  | .tick, .idle => some .reconciling
  | .settled, .reconciling => some (.working .seals)
  | .pass, .working phase => some phase.next
  | .sealEpoch source epoch policy, .working .seals => some (.asking (.sealEntry source epoch policy) (.go .seals))
  | .viewQueue, .working .enqueues => some (viewQueue st.chain)
  | .enqueueNext, .enqueueing id last =>
    some (if id ≤ last then .asking (.enqueue id) (.enqueueing (id + 1) last) else .working .rounds)
  | .viewRound id, .working phase =>
    if phase = .rounds ∨ phase = .again then some (.round phase ⟨id, st.chain.store.rounds id, none, none, none⟩)
    else none
  | .viewFunded, .round phase v =>
    match StockAdapter.funded (y.peers v.round.adapter) (st.chain.world.2.adapters v.round.adapter)
        st.chain.world.2.rest v.round.orderId with
    | .ok funded => some (.round phase { v with funded := some funded })
    | .error _ => none
  | .viewResult proven, .round phase v =>
    some (.round phase { v with result := some (probeResult y st.chain v.round proven) })
  | .viewOrphan, .round phase v =>
    some (.round phase { v with orphan := some (st.chain.store.orphanConsumed v.id) })
  | .decide now dispatchedAt dispatched, .round phase v =>
    if v.complete then some (v.goes p phase (v.ctx now dispatchedAt dispatched)) else none
  | .viewGroup group, .working .batches => some (.grouping group (groupIds st.chain group))
  | .viewCursor, .grouping group ids => some (.group ⟨group, ids, st.chain.world.1.cursor group, []⟩)
  | .viewEntry, .group v =>
    match v.window[v.skippable.length]? with
    | some id => some (.group { v with
        skippable := v.skippable ++ [decide (st.chain.store.available id = 0 ∨ 0 < st.chain.store.pending id)] })
    | none => none
  | .advance, .group v => if v.skippable.length = v.window.length then some (v.goes p) else none
  | .plan plan, .working .batches => some (.planned plan)
  | .viewFees, .planned plan =>
    some (plan.goes ((st.chain.world.2.adapters plan.adapter).feeBalance plan.quote.orderId))
  | .unsigned, .asking (.executeAndStart _) next => some (next.stage false)
  | .crash, _ => some .idle
  | _, _ => none

/-- `tx.call` up to the hand-over; a signature takes a nonce that is not used. -/
def ask (st : State V) (r : Request) (next : After) (outcome : Outcome) (nonce ms : Nat) : Option (State V) :=
  match Journal.send st.Received (st.tasks r.key) ⟨r, nonce⟩ outcome ms with
  | some (task, answer) =>
    let st := { st.setTask r.key task with stage := next.next r answer }
    match answer with
    | .sent tx => if st.nextNonce ≤ nonce then some { st with signed := st.signed ++ [tx] } else none
    | _ => some st
  | none => none

/-- `tx.call` from the hand-over on. -/
def await (st : State V) (r : Request) (tx : Signed) (next : After) (outcome : Outcome) (ms : Nat) :
    Option (State V) :=
  match Journal.await st.Received (st.tasks r.key) tx outcome ms with
  | some (task, answer) => some { st.setTask r.key task with stage := next.next r answer }
  | none => none

/-- The keeper's own steps. -/
def own (st : State V) (action : Action) : Option (State V) :=
  match action, st.stage with
  | .settle key outcome ms, .reconciling =>
    (Journal.settle st.Received (st.tasks key) outcome ms).map (st.setTask key)
  | .ask outcome nonce ms, .asking r next => ask st r next outcome nonce ms
  | .await outcome ms, .waiting r tx next => await st r tx next outcome ms
  | action, _ => (go y p st action).map fun stage => { st with stage := stage }

inductive Step (st : State V) : Action → State V → Prop where
  | chain (call : Call) (chain : RoundChain.State V) (turn : Turn y st.chain call chain) :
      Step st (.chain call) { st with chain := chain }
  | own (action : Action) {after : State V} (done : own y p st action = some after) : Step st action after
  | mine (tx : Signed) (now : Nat) (chain : RoundChain.State V) (signed : tx ∈ st.signed)
      (next : tx.nonce = st.nextNonce) (turn : Turn y st.chain (tx.request.call keeper now) chain) :
      Step st (.mine tx now true)
        { st with chain := chain, nextNonce := st.nextNonce + 1, mined := st.mined ++ [tx] }
  | reverts (tx : Signed) (now : Nat) (signed : tx ∈ st.signed) (next : tx.nonce = st.nextNonce) :
      Step st (.mine tx now false) { st with nextNonce := st.nextNonce + 1 }
  | mineOther : Step st .mineOther { st with nextNonce := st.nextNonce + 1 }

/-! What a request is for, and what its key leaves out. -/

def Effect (chain : RoundChain.State V) : Request → Prop
  | .sealEntry source epoch _ => chain.store.sealedSource (source, epoch, 0) = true
  | .enqueue id => id < chain.world.1.nextToEnqueue
  | .advance group cursor n => cursor + n ≤ chain.world.1.cursor group
  | .depositFees adapter orderId fees18 _ => fees18 ≤ (chain.world.2.adapters adapter).feeBalance orderId
  | .executeAndStart plan => ∃ id, (chain.store.rounds id).status.started = true ∧
      (chain.store.rounds id).orderId = plan.quote.orderId
  | .round id .poke _ => Status.funded.leads (chain.store.rounds id).status = true
  | .round id .submit _ => (chain.store.rounds id).submittedAt ≠ 0
  | .round id .cancelUnsent _ => (chain.store.rounds id).status = .cancelledUnsent
  | .round id .requestCancel _ => (chain.store.rounds id).cancelRequested = true
  | .round id .finalize .refunded => chain.store.orphanConsumed id = true
  | .round id .finalize _ => (chain.store.rounds id).status.final = true

/-- The keeper asks for it, or has signed it. -/
def State.Decided (st : State V) (r : Request) : Prop :=
  (∃ tx ∈ st.signed, tx.request = r) ∨ ∃ next, st.stage = .asking r next

/-- Every entry that an advance was to pass is still blocked. -/
def StillBlocked (chain : RoundChain.State V) (group : Policy) (cursor n : Nat) : Prop :=
  cursor ≤ chain.world.1.cursor group ∧ ∀ i, chain.world.1.cursor group ≤ i → i < cursor + n →
    ∃ id, (chain.world.1.queues group)[i]? = some id ∧ ¬ Batcher.Fundable chain.store id

/-- A step that undoes no transaction of the keeper's and asks for no more under a key than the journal has for it. -/
structure Meets (st : State V) (action : Action) (after : State V) : Prop where
  /-- No round that closes frees an entry that an advance has passed. -/
  spared : ∀ tx ∈ st.mined, ∀ group cursor n, tx.request = .advance group cursor n →
    Spared st.chain after.chain group (cursor + n)
  blocked : ∀ tx now, action = .mine tx now true → ∀ group cursor n, tx.request = .advance group cursor n →
    StillBlocked st.chain group cursor n
  /-- Ops takes no fees out of an order that has not started. -/
  fees : ∀ adapter sender orderId, action = .chain (.refundUnusedFees adapter sender orderId true) →
    (st.chain.world.2.adapters adapter).state orderId = .none →
    (st.chain.world.2.adapters adapter).feeBalance orderId ≠ 0 →
    ∀ fees18 value, ¬ st.Decided (.depositFees adapter orderId fees18 value)
  /-- An advance is not asked for again for more entries. -/
  entries : ∀ outcome nonce ms, action = .ask outcome nonce ms → ∀ group cursor n next,
    st.stage = .asking (.advance group cursor n) next → ∀ tx m, Notes (st.tasks (.advance group cursor)) tx →
      tx.request = .advance group cursor m → n ≤ m
  /-- No deposit is asked for once the order has started. -/
  unstarted : ∀ outcome nonce ms, action = .ask outcome nonce ms → ∀ adapter orderId fees18 value next,
    st.stage = .asking (.depositFees adapter orderId fees18 value) next →
      (st.chain.world.2.adapters adapter).state orderId = .none

end Solonpad.RoundTasks
