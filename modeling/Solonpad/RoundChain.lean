import Solonpad.BatcherRuns
import Solonpad.RoundProgress
import Solonpad.StockAdapter

/-!
The contracts that a round goes through: the manager, its batcher and the stock adapters. Others call the adapters as
anyone may, also while the manager waits for them, and have a state `V` of their own.
-/

namespace Solonpad.RoundChain

open Checked Rounds
open Chain (Address)
open Hub (RoundOrderId)
open StockAdapter (SignedQuote)

structure Outside (V : Type) where
  adapters : Address → StockAdapter.State
  rest : V

abbrev World (V : Type) := Batcher.Store × Outside V

abbrev State (V : Type) := Rounds.State (World V)

variable {V : Type}

/-- What is ready stays ready. -/
def Keeps (ready : V → Address → RoundOrderId → Prop) (v after : V) : Prop :=
  ∀ adapter id, ready v adapter id → ready after adapter id

/-- What an adapter's hub has for an order is there until the adapter claims it. -/
structure Results (peers : Address → StockAdapter.Peers V) (ready : V → Address → RoundOrderId → Prop) : Prop where
  beginFunding : ∀ a v id budget minRaw value after,
    (peers a).beginFunding v id budget minRaw value = .ok after → Keeps ready v after
  submitFundedBuy : ∀ a v id after, (peers a).submitFundedBuy v id = .ok after → Keeps ready v after
  requestCancel : ∀ a v id after, (peers a).requestCancel v id = .ok after → Keeps ready v after
  safeTransfer : ∀ a v raw after, (peers a).safeTransfer v raw = .ok after → Keeps ready v after
  pay : ∀ a v refund18 after, (peers a).pay v refund18 = .ok after → Keeps ready v after
  claimed : ∀ a v id after status raw refund18, (peers a).claimResult v id = .ok (after, status, raw, refund18) →
    (status ≠ 0 ↔ ready v a id) ∧
      ∀ other order, (other, order) ≠ (a, id) → ready v other order → ready after other order

structure System (V : Type) where
  manager : Rounds.Config
  /-- The batcher. -/
  self : Address
  balances : Balances V
  adapters : Address → StockAdapter.Config
  peers : Address → StockAdapter.Peers V
  ready : V → Address → RoundOrderId → Prop
  results : Results peers ready

/-- The balances, in the world beside the batcher, and in all of it. -/
def System.outer (y : System V) : Balances (Outside V) :=
  ⟨fun o => y.balances.manager o.rest, fun o => y.balances.vault o.rest, fun o asset => y.balances.stock o.rest asset⟩

def System.purses (y : System V) : Balances (World V) := Batcher.shared y.outer

/-- Calls of the adapters that anyone may make. -/
inductive Touched (c : Address → StockAdapter.Config) (before : Address → StockAdapter.State) :
    (Address → StockAdapter.State) → Prop where
  | refl : Touched c before before
  | depositFees {middle : Address → StockAdapter.State} (earlier : Touched c before middle) (a : Address)
      (id : RoundOrderId) (value : Nat) {after : StockAdapter.State}
      (taken : StockAdapter.depositFees (middle a) id value = .ok after) :
      Touched c before (Function.update middle a after)
  | refundUnusedFees {middle : Address → StockAdapter.State} (earlier : Touched c before middle) (a sender : Address)
      (id : RoundOrderId) (accepts : Bool) (other : sender ≠ (c a).opsVault) {after : StockAdapter.State}
      (taken : StockAdapter.refundUnusedFees (c a) (middle a) sender id accepts = .ok after) :
      Touched c before (Function.update middle a after)

variable (y : System V)

/-- Of the outside, while the manager and the batcher stand still. -/
structure Aside (o after : Outside V) : Prop where
  touched : Touched y.adapters o.adapters after.adapters
  ready : Keeps y.ready o.rest after.rest

/-- Anyone's calls of the batcher and the adapters while the manager's storage stands still. -/
structure Beside (s : Store) (w after : World V) : Prop where
  calls : Batcher.Calls s w.1 after.1
  aside : Aside y w.2 after.2

/-- One adapter's call is done. -/
def put (w : World V) (a : Address) (adapter : StockAdapter.State) (rest : V) : World V :=
  (w.1, ⟨Function.update w.2.adapters a adapter, rest⟩)

/-- A call of an adapter by the manager, with what others do before and after it. -/
def Called (s : Store) (w : World V) (a : Address) (call : StockAdapter.State → V → StockAdapter.State → V → Prop)
    (after : World V) : Prop :=
  ∃ middle adapter rest, Beside y s w middle ∧ call (middle.2.adapters a) middle.2.rest adapter rest ∧
    Beside y s (put middle a adapter rest) after

/-- What the manager's peers are in one call: its batcher and the adapters, and others who call these as anyone may,
while the manager's storage is as before the call or as it leaves it. -/
structure Served (x : Peers (World V)) (now : Nat) (quote : SignedQuote) (before after : Store) : Prop where
  told : ∀ s w id, x.onRoundFinalized s w id = (do
    let q ← Batcher.onRoundFinalized s (s.slices id) w.1
    pure (q, w.2))
  sealReward : ∀ w source epoch cohort w' budget total kind,
    x.sealReward w source epoch cohort = .ok (w', budget, total, kind) → Beside y before w w'
  registerAllocation : ∀ w id entry asset w', x.registerAllocation w id entry asset = .ok w' → Beside y after w w'
  reserveFor : ∀ w orderId asset amount w', x.reserveFor w orderId asset amount = .ok w' → Beside y after w w'
  releaseUnsent : ∀ w orderId w', x.releaseUnsent w orderId = .ok w' → Beside y after w w'
  startFunding : ∀ w a id budget minRaw deadline w', x.startFunding w a id budget minRaw deadline = .ok w' →
    Called y after w a (fun s v s' v' => StockAdapter.startFunding (y.peers a) (y.adapters a) s v
      ⟨(y.adapters a).coordinator, now, budget, budget, minRaw, deadline, (y.adapters a).vault⟩ id quote =
        .ok (s', v')) w'
  funded : ∀ w a id answer, x.funded w a id = .ok answer →
    StockAdapter.funded (y.peers a) (w.2.adapters a) w.2.rest id = .ok answer
  submit : ∀ w a id w', x.submit w a id = .ok w' →
    Called y after w a (fun s v s' v' =>
      StockAdapter.submit (y.peers a) (y.adapters a) s v (y.adapters a).coordinator id = .ok (s', v')) w'
  requestCancel : ∀ w a id w', x.requestCancel w a id = .ok w' →
    Called y after w a (fun s v s' v' => s' = s ∧
      StockAdapter.requestCancel (y.peers a) (y.adapters a) s v (y.adapters a).coordinator id = .ok v') w'
  consumeResult : ∀ w a id w' outcome raw refund, x.consumeResult w a id = .ok (w', outcome, raw, refund) →
    Called y before w a (fun s v s' v' =>
      StockAdapter.consumeResult (y.peers a) (y.adapters a) s v (y.adapters a).coordinator id =
        .ok (s', v', outcome, raw, refund)) w'
  returnRefund : ∀ w amount w', x.returnRefund w amount = .ok w' → Beside y after w w'
  sendOrphan : ∀ w asset treasury raw w', x.sendOrphan w asset treasury raw = .ok w' → Beside y after w w'
  recordDelivery : ∀ w id raw w', x.recordDelivery w id raw = .ok w' → Beside y after w w'

/-- A transaction: a call of one of the contracts, or others' own business. -/
inductive Call where
  | manager (env : Env) (action : Rounds.Action)
  | executeAndStart (now : Nat) (requested : List EntryId) (maxBudget : Nat) (quote : SignedQuote)
  | enqueue (id : EntryId)
  | advance (group : Policy) (max : Nat)
  | depositFees (a : Address) (id : RoundOrderId) (value : Nat)
  | refundUnusedFees (a sender : Address) (id : RoundOrderId) (accepts : Bool)
  | other

/-- The turns of the contracts. The governor wires this batcher, and only its own `executeAndStart` calls the manager as
the batcher. -/
inductive Turn (s : State V) : Call → State V → Prop where
  | manager (x : Peers (World V)) (env : Env) (action : Rounds.Action) (quote : SignedQuote) {after : State V}
      (clock : 0 < env.now) (spares : Spares y.purses x) (served : Served y x env.now quote s.store after.store)
      (other : env.sender ≠ y.self)
      (wires : ∀ batcher capacity, action = .configureExecution batcher capacity → batcher = y.self)
      (taken : Rounds.step y.manager y.purses x s env action = .ok after) : Turn s (.manager env action) after
  | executeAndStart (x z : Peers (World V)) (now : Nat) (requested : List EntryId) (maxBudget : Nat)
      (quote : SignedQuote) (limit : Nat) (items : List Slice) {middle after : State V} (clock : 0 < now)
      (spares : Spares y.purses x ∧ Spares y.purses z)
      (reserving : Served y x now quote s.store middle.store)
      (starting : Served y z now quote middle.store after.store)
      (some_ : 0 < requested.length ∧ requested.length ≤ 64) (limited : runLimit x s = .ok limit)
      (preview : Batcher.previewBatch s.store s.world.1 limit
        (Batcher.groupKey s.store (requested.headD 0)) maxBudget = .ok items)
      (fifo : items.map Slice.entryId = requested)
      (reserved : reserveBatch y.manager x s ⟨y.self, now⟩ requested (items.map Slice.budget18) quote.minRawOut
        quote.deadline = .ok middle)
      (started : start z middle ⟨y.self, now⟩ middle.store.nextRoundId = .ok after) :
      Turn s (.executeAndStart now requested maxBudget quote) after
  | enqueue (id : EntryId) (q : Batcher.Store) (taken : Batcher.enqueue s.store s.world.1 id = .ok q) :
      Turn s (.enqueue id) ⟨s.store, (q, s.world.2)⟩
  | advance (group : Policy) (max : Nat) (q : Batcher.Store)
      (taken : Batcher.advance s.store s.world.1 group max = .ok q) :
      Turn s (.advance group max) ⟨s.store, (q, s.world.2)⟩
  | depositFees (a : Address) (id : RoundOrderId) (value : Nat) (adapter : StockAdapter.State) (rest : V)
      (taken : StockAdapter.depositFees (s.world.2.adapters a) id value = .ok adapter)
      (kept : Keeps y.ready s.world.2.rest rest)
      (spares : y.balances.manager s.world.2.rest ≤ y.balances.manager rest) :
      Turn s (.depositFees a id value) ⟨s.store, put s.world a adapter rest⟩
  | refundUnusedFees (a sender : Address) (id : RoundOrderId) (accepts : Bool) (adapter : StockAdapter.State)
      (rest : V)
      (taken : StockAdapter.refundUnusedFees (y.adapters a) (s.world.2.adapters a) sender id accepts = .ok adapter)
      (kept : Keeps y.ready s.world.2.rest rest)
      (spares : y.balances.manager s.world.2.rest ≤ y.balances.manager rest) :
      Turn s (.refundUnusedFees a sender id accepts) ⟨s.store, put s.world a adapter rest⟩
  | other (o : Outside V) (aside : Aside y s.world.2 o)
      (spares : y.balances.manager s.world.2.rest ≤ y.balances.manager o.rest) :
      Turn s .other ⟨s.store, (s.world.1, o)⟩

/-- Deployed into any world. -/
def deployed (rest : V) : State V :=
  ⟨Store.empty, (Batcher.deployed, ⟨fun _ => StockAdapter.deployed, rest⟩)⟩

/-! The batcher's runs. -/

variable {y} {s after : State V}

theorem calls_trans {st : Store} {q middle next : Batcher.Store} (first : Batcher.Calls st q middle)
    (second : Batcher.Calls st middle next) : Batcher.Calls st q next := by
  induction second with
  | refl => exact first
  | enqueue _ id taken ih => exact .enqueue ih id taken
  | advance _ group max taken ih => exact .advance ih group max taken

theorem Called.calls {st : Store} {w next : World V} {a : Address}
    {call : StockAdapter.State → V → StockAdapter.State → V → Prop} (called : Called y st w a call next) :
    Batcher.Calls st w.1 next.1 := by
  obtain ⟨middle, adapter, rest, first, _, second⟩ := called
  exact calls_trans first.calls second.calls

theorem Served.joined {x : Peers (World V)} {now : Nat} {quote : SignedQuote} {before next : Store}
    (served : Served y x now quote before next) : Batcher.Joined x before next where
  told := served.told
  sealReward _ _ _ _ _ _ _ _ done := (served.sealReward _ _ _ _ _ _ _ _ done).calls
  registerAllocation _ _ _ _ _ done := (served.registerAllocation _ _ _ _ _ done).calls
  reserveFor _ _ _ _ _ done := (served.reserveFor _ _ _ _ _ done).calls
  releaseUnsent _ _ _ done := (served.releaseUnsent _ _ _ done).calls
  startFunding _ _ _ _ _ _ _ done := (served.startFunding _ _ _ _ _ _ _ done).calls
  submit _ _ _ _ done := (served.submit _ _ _ _ done).calls
  requestCancel _ _ _ _ done := (served.requestCancel _ _ _ _ done).calls
  consumeResult _ _ _ _ _ _ _ done := (served.consumeResult _ _ _ _ _ _ _ done).calls
  returnRefund _ _ _ done := (served.returnRefund _ _ _ done).calls
  sendOrphan _ _ _ _ _ done := (served.sendOrphan _ _ _ _ _ done).calls
  recordDelivery _ _ _ _ done := (served.recordDelivery _ _ _ _ done).calls

/-- A turn is one of the manager and the batcher in a world of more. -/
theorem Turn.batcher {call : Call} (turn : Turn y s call after) : Batcher.Turn y.manager y.outer y.self s after := by
  cases turn with
  | manager x env action quote clock spares served other wires taken =>
    exact .call x env action spares served.joined other wires taken
  | executeAndStart x z now requested maxBudget quote limit items clock spares reserving starting some_ limited
      preview fifo reserved started =>
    exact .execute x z now requested maxBudget quote.minRawOut quote.deadline limit items spares reserving.joined
      starting.joined some_ limited preview fifo reserved started
  | enqueue id q taken => exact .batcher q (.enqueue (.refl _) id taken)
  | advance group max q taken => exact .batcher q (.advance (.refl _) group max taken)
  | depositFees a id value adapter rest taken kept spares => exact .world _ spares
  | refundUnusedFees a sender id accepts adapter rest taken kept spares => exact .world _ spares
  | other o aside spares => exact .world o spares

/-! What each of these leaves of the adapters. -/

theorem Keeps.refl (ready : V → Address → RoundOrderId → Prop) (v : V) : Keeps ready v v := fun _ _ held => held

theorem Keeps.trans {ready : V → Address → RoundOrderId → Prop} {v middle next : V} (first : Keeps ready v middle)
    (second : Keeps ready middle next) : Keeps ready v next := fun a id held => second a id (first a id held)

/-- What becomes of the outside when no result is claimed. -/
structure Onward (y : System V) (o after : Outside V) : Prop where
  adapters : ∀ a, StockAdapter.Onward (o.adapters a) (after.adapters a)
  ready : Keeps y.ready o.rest after.rest

variable {o next : Outside V}

theorem Onward.refl (o : Outside V) : Onward y o o := ⟨fun _ => .refl _, .refl _ _⟩

theorem Onward.trans {middle : Outside V} (first : Onward y o middle) (second : Onward y middle next) :
    Onward y o next :=
  ⟨fun a => (first.adapters a).trans (second.adapters a), first.ready.trans second.ready⟩

theorem onward_update {k : Address → StockAdapter.State} {a : Address} {adapter : StockAdapter.State}
    (own : StockAdapter.Onward (k a) adapter) (other : Address) :
    StockAdapter.Onward (k other) (Function.update k a adapter other) := by
  by_cases same : other = a
  · subst same
    rwa [Function.update_self]
  · rw [Function.update_of_ne same]
    exact .refl _

theorem Touched.onward {c : Address → StockAdapter.Config} {before k : Address → StockAdapter.State}
    (touched : Touched c before k) (a : Address) : StockAdapter.Onward (before a) (k a) := by
  induction touched with
  | refl => exact .refl _
  | depositFees _ other id value taken ih =>
    exact ih.trans (onward_update (StockAdapter.depositFees_onward taken) a)
  | @refundUnusedFees middle _ other sender id accepts stranger _ taken ih =>
    refine ih.trans (onward_update (StockAdapter.refundUnusedFees_onward taken ?_) a)
    -- A stranger is refused before the order has started.
    intro _ fresh
    rcases (StockAdapter.refundUnusedFees_ok taken).1 with held | ops
    · exact absurd fresh held
    · exact absurd ops stranger

theorem Aside.onward (aside : Aside y o next) : Onward y o next := ⟨aside.touched.onward, aside.ready⟩

end Solonpad.RoundChain
