import Solonpad.RoundLedger

/-!
`RewardBatcher.sol` with the round manager it serves: entries queue by group in the order they were
sealed, and a cursor passes what cannot be funded. The batcher is part of what the manager's peers
change: the manager tells it of a closed round, and while the manager waits for any other contract,
anyone may enqueue or advance. A group is the policy its key hashes.
-/

namespace Solonpad.Batcher

open Checked Rounds
open Chain (Address)

inductive BatcherError where
  | required | fifo
  deriving DecidableEq, Repr

structure Store where
  nextToEnqueue : Nat
  enqueued : EntryId → Bool
  queues : Policy → List EntryId
  cursor : Policy → Nat
  queueIndex : EntryId → Nat

def deployed : Store where
  nextToEnqueue := 1
  enqueued := fun _ => false
  queues := fun _ => []
  cursor := fun _ => 0
  queueIndex := fun _ => 0

/-- `groupKey`. -/
def groupKey (s : Rounds.Store) (id : EntryId) : Policy := (s.entries id).policy

/-- An entry with budget to spend that no round holds. -/
def Fundable (s : Rounds.Store) (id : EntryId) : Prop := 0 < s.available id ∧ s.pending id = 0

instance (s : Rounds.Store) (id : EntryId) : Decidable (Fundable s id) :=
  inferInstanceAs (Decidable (_ ∧ _))

def scanLimit : Nat := 64

/-- The hub funds whole six-decimal units only. -/
def unit : Nat := 10 ^ 12

def enqueue (s : Rounds.Store) (q : Store) (id : EntryId) : Checked.Tx BatcherError Store := do
  require (id = q.nextToEnqueue ∧ (s.entries id).source ≠ 0) .required
  let group := groupKey s id
  pure { q with
    nextToEnqueue := q.nextToEnqueue + 1
    enqueued := Function.update q.enqueued id true
    queueIndex := Function.update q.queueIndex id (q.queues group).length
    queues := Function.update q.queues group (q.queues group ++ [id]) }

/-! `previewBatch`. -/

/-- The slices offered from a part of a queue, given what is taken already. At most one an entry, so
the limit on the entries scanned is also the limit on the slices. -/
def collect (s : Rounds.Store) (maxBudget : Nat) : Nat → List EntryId → List Slice
  | _, [] => []
  | total, id :: rest =>
    if maxBudget ≤ total then []
    else if 0 < s.pending id then collect s maxBudget total rest
    else if s.available id = 0 then collect s maxBudget total rest
    else
      let amount := if s.available id < maxBudget - total then s.available id else maxBudget - total
      ⟨id, amount⟩ :: collect s maxBudget (total + amount) rest

def sum (items : List Slice) : Nat := (items.map Slice.budget18).sum

/-- The tail trimmed off the slices, last first. -/
def trim : List Slice → Nat → Checked.Tx BatcherError (List Slice)
  | [], tail => if tail = 0 then pure [] else throw .underflow
  | last :: rest, tail =>
    if tail = 0 then pure (last :: rest)
    else if tail < last.budget18 then pure (⟨last.entryId, last.budget18 - tail⟩ :: rest)
    else trim rest (tail - last.budget18)

def previewBatch (s : Rounds.Store) (q : Store) (limit : Nat) (group : Policy) (maxBudget : Nat) :
    Checked.Tx BatcherError (List Slice) := do
  require (0 < maxBudget ∧ maxBudget ≤ limit) .required
  let items := collect s maxBudget 0 (((q.queues group).drop (q.cursor group)).take scanLimit)
  let trimmed ← trim items.reverse (sum items % unit)
  pure trimmed.reverse

/-! The cursor. -/

/-- The cursor after passing at most so many entries that cannot be funded. -/
def pass (s : Rounds.Store) (queue : List EntryId) : Nat → Nat → Nat
  | 0, head => head
  | n + 1, head =>
    match queue[head]? with
    | none => head
    | some id => if s.available id = 0 ∨ 0 < s.pending id then pass s queue n (head + 1) else head

def advance (s : Rounds.Store) (q : Store) (group : Policy) (max : Nat) :
    Checked.Tx BatcherError Store := do
  require (0 < max ∧ max ≤ 64) .required
  pure { q with cursor := Function.update q.cursor group (pass s (q.queues group) max (q.cursor group)) }

/-- One slice of a closed round. -/
def restore (s : Rounds.Store) (q : Store) (id : EntryId) : Store :=
  if s.pending id ≠ 0 ∨ s.available id = 0 then q
  else
    let group := groupKey s id
    if q.queueIndex id < q.cursor group then
      { q with cursor := Function.update q.cursor group (q.queueIndex id) }
    else q

/-- `onRoundFinalized`, for the manager. -/
def onRoundFinalized (s : Rounds.Store) : List Slice → Store → Rounds.Tx Store
  | [], q => pure q
  | slice :: rest, q => do
    require (q.enqueued slice.entryId = true) .peer
    onRoundFinalized s rest (restore s q slice.entryId)

/-! The system. -/

/-- Anyone's calls of the batcher while the manager's storage stands still. -/
inductive Calls (s : Rounds.Store) : Store → Store → Prop where
  | refl (q : Store) : Calls s q q
  | enqueue {q middle after : Store} (earlier : Calls s q middle) (id : EntryId)
      (taken : enqueue s middle id = .ok after) : Calls s q after
  | advance {q middle after : Store} (earlier : Calls s q middle) (group : Policy) (max : Nat)
      (taken : advance s middle group max = .ok after) : Calls s q after

variable {V : Type}

/-- In one call of the manager the batcher is told of closed rounds, and other contracts call it as
anyone may, while the manager's storage is as before the call or as it leaves it. -/
structure Joined (x : Peers (Store × V)) (before after : Rounds.Store) : Prop where
  told : ∀ s w id, x.onRoundFinalized s w id = (do
    let q ← onRoundFinalized s (s.slices id) w.1
    pure (q, w.2))
  sealReward : ∀ w source epoch cohort w' budget total kind,
    x.sealReward w source epoch cohort = .ok (w', budget, total, kind) → Calls before w.1 w'.1
  registerAllocation : ∀ w id entry asset w',
    x.registerAllocation w id entry asset = .ok w' → Calls after w.1 w'.1
  reserveFor : ∀ w orderId asset amount w',
    x.reserveFor w orderId asset amount = .ok w' → Calls after w.1 w'.1
  releaseUnsent : ∀ w orderId w', x.releaseUnsent w orderId = .ok w' → Calls after w.1 w'.1
  startFunding : ∀ w adapter orderId budget minRaw deadline w',
    x.startFunding w adapter orderId budget minRaw deadline = .ok w' → Calls after w.1 w'.1
  submit : ∀ w adapter orderId w', x.submit w adapter orderId = .ok w' → Calls after w.1 w'.1
  requestCancel : ∀ w adapter orderId w',
    x.requestCancel w adapter orderId = .ok w' → Calls after w.1 w'.1
  consumeResult : ∀ w adapter orderId w' outcome raw refund,
    x.consumeResult w adapter orderId = .ok (w', outcome, raw, refund) → Calls before w.1 w'.1
  returnRefund : ∀ w amount w', x.returnRefund w amount = .ok w' → Calls after w.1 w'.1
  sendOrphan : ∀ w asset treasury raw w',
    x.sendOrphan w asset treasury raw = .ok w' → Calls after w.1 w'.1
  recordDelivery : ∀ w id raw w', x.recordDelivery w id raw = .ok w' → Calls after w.1 w'.1

/-- The batcher holds no money. -/
def shared (b : Balances V) : Balances (Store × V) :=
  ⟨fun w => b.manager w.2, fun w => b.vault w.2, fun w => b.stock w.2⟩

variable (c : Config) (b : Balances V) (self : Address)

/-- The turns of the two contracts. The governor wires this batcher, and only its own `execute` calls
the manager as the batcher. -/
inductive Turn (s : State (Store × V)) : State (Store × V) → Prop where
  | call (x : Peers (Store × V)) (env : Env) (action : Action) {after : State (Store × V)}
      (spares : Spares (shared b) x) (joined : Joined x s.store after.store) (other : env.sender ≠ self)
      (wires : ∀ batcher capacity, action = .configureExecution batcher capacity → batcher = self)
      (taken : step c (shared b) x s env action = .ok after) : Turn s after
  /-- `executeAndStart`. -/
  | execute (x y : Peers (Store × V)) (now : Nat) (requested : List EntryId)
      (maxBudget minRaw deadline limit : Nat) (items : List Slice) {middle after : State (Store × V)}
      (spares : Spares (shared b) x ∧ Spares (shared b) y) (joined : Joined x s.store middle.store)
      (joined' : Joined y middle.store after.store)
      (some_ : 0 < requested.length ∧ requested.length ≤ 64) (limited : runLimit x s = .ok limit)
      (preview : previewBatch s.store s.world.1 limit (groupKey s.store (requested.headD 0)) maxBudget =
        .ok items)
      (fifo : items.map Slice.entryId = requested)
      (reserved : reserveBatch c x s ⟨self, now⟩ requested (items.map Slice.budget18) minRaw deadline =
        .ok middle)
      (started : start y middle ⟨self, now⟩ middle.store.nextRoundId = .ok after) : Turn s after
  | batcher (q : Store) (calls : Calls s.store s.world.1 q) : Turn s ⟨s.store, (q, s.world.2)⟩
  /-- Another contract's own business. -/
  | world (world : V) (spares : b.manager s.world.2 ≤ b.manager world) :
      Turn s ⟨s.store, (s.world.1, world)⟩

/-- The states of the two contracts, deployed into any world. -/
def Run (s : State (Store × V)) : Prop :=
  ∃ world, Transition.Reachable (fun s (_ : Unit) after => Turn c b self s after)
    ⟨Rounds.Store.empty, (deployed, world)⟩ s

end Solonpad.Batcher
