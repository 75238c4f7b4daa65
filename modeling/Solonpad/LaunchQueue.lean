import Solonpad.HubFile
import Solonpad.HubFills
import Solonpad.HubSolvency
import Solonpad.SchedulerRuns

/-!
The hub with the scheduler it launches from. The scheduler asks the capacity controller whether the public head
fits before it calls the hub, so what the hub's own launch does with an order that does not fit is never
reached for one that is larger than the single-order limit.
-/

namespace Solonpad.OrderScheduler

open Checked
open Chain (Address)

variable {c : Config} {s after : State} {answers : Answers} {queue : List Nat} {n h position id : Nat}
  {calls : List Inner}

/-! Where a scan stops. -/

theorem scan_bound (found : scan answers queue n h = some position) : position < h + n := by
  induction n generalizing h with
  | zero => cases found
  | succ n ih =>
    unfold scan at found
    split at found
    · cases found
    · split at found
      · cases found
        omega
      · have later := ih found
        omega

/-- A scan within reach of a pending entry, with only closed ones before it, stops there. -/
theorem scan_stops (low : h ≤ position) (high : position < h + n) (entry : queue[position]? = some id)
    (pending : answers.pending id = true) (closed : ∀ i, h ≤ i → i < position → ClosedAt answers queue i) :
    scan answers queue n h = some position := by
  induction n generalizing h with
  | zero => omega
  | succ n ih =>
    unfold scan
    by_cases here : h = position
    · subst here
      simp only [entry, pending, if_true]
    · obtain ⟨other, first, ended⟩ := closed h (Nat.le_refl _) (by omega)
      simp only [first, ended, Bool.false_eq_true, if_false]
      exact ih (by omega) (by omega) fun i after before => closed i (by omega) before

/-- Closed entries are skipped, a pending one is not. -/
theorem skip_stops (low : h ≤ position) (entry : queue[position]? = some id)
    (pending : answers.pending id = true) : skip answers queue n h ≤ position := by
  by_contra past
  obtain ⟨_, closed⟩ := skip_closed answers queue n h
  obtain ⟨other, here, ended⟩ := closed position low (Nat.lt_of_not_le past)
  cases entry.symm.trans here
  rw [pending] at ended
  cases ended

/-! What the calls of a launch add. -/

theorem inners_entries (taken : inners c s calls = .ok after) {lane : Lane} (member : id ∈ after.queue lane) :
    id ∈ s.queue lane ∨ ∃ n, Inner.enqueue n id ∈ calls ∧ laneOf n = lane := by
  induction calls generalizing s with
  | nil =>
    cases taken
    exact .inl member
  | cons call rest ih =>
    simp only [inners, bind_ok] at taken
    obtain ⟨middle, first, taken⟩ := taken
    rcases ih taken with earlier | ⟨n, listed, same⟩
    · cases call with
      | skipClosed answers lane max =>
        cases first
        exact .inl earlier
      | enqueue n own =>
        simp only [inner, enqueue, bind_ok, require_ok, pure_ok] at first
        obtain ⟨_, _, _, _, rfl⟩ := first
        dsimp only at earlier
        by_cases same : lane = laneOf n
        · subst same
          rw [Function.update_self, List.mem_append, List.mem_singleton] at earlier
          rcases earlier with old | rfl
          · exact .inl old
          · exact .inr ⟨n, List.mem_cons_self, rfl⟩
        · rw [Function.update_of_ne same] at earlier
          exact .inl earlier
    · exact .inr ⟨n, List.mem_cons_of_mem _ listed, same⟩

/-- Calls that queue nothing publicly leave the public queue, and its head before a pending entry. -/
theorem inners_public (taken : inners c s calls = .ok after) (others : ∀ n own, Inner.enqueue n own ∈ calls → n ≠ 0)
    (pending : ∀ answers lane max, Inner.skipClosed answers lane max ∈ calls → answers.pending id = true)
    (low : s.head .pub ≤ position) (entry : (s.queue .pub)[position]? = some id) :
    after.queue .pub = s.queue .pub ∧ s.head .pub ≤ after.head .pub ∧ after.head .pub ≤ position := by
  induction calls generalizing s with
  | nil =>
    cases taken
    exact ⟨rfl, Nat.le_refl _, low⟩
  | cons call rest ih =>
    simp only [inners, bind_ok] at taken
    obtain ⟨middle, first, taken⟩ := taken
    have one : middle.queue .pub = s.queue .pub ∧ s.head .pub ≤ middle.head .pub ∧ middle.head .pub ≤ position := by
      cases call with
      | enqueue n own =>
        simp only [inner, enqueue, bind_ok, require_ok, pure_ok] at first
        obtain ⟨_, _, _, _, rfl⟩ := first
        have reward : laneOf n = .reward := if_neg (others n own List.mem_cons_self)
        have kept : Function.update s.queue .reward (s.queue .reward ++ [own]) .pub = s.queue .pub :=
          Function.update_of_ne (by decide) ..
        rw [reward]
        exact ⟨kept, Nat.le_refl _, low⟩
      | skipClosed answers lane max =>
        cases first
        have waits := pending answers lane max List.mem_cons_self
        by_cases pub : laneOf lane = .pub
        · simp only [skipClosed, pub, Function.update_self, true_and]
          exact ⟨(skip_closed answers _ max _).1, skip_stops low entry waits⟩
        · simp only [skipClosed, Function.update_of_ne (Ne.symm pub), true_and]
          exact ⟨Nat.le_refl _, low⟩
    obtain ⟨queue, grows, before⟩ := one
    obtain ⟨same, further, within⟩ := ih taken
      (fun n own listed => others n own (List.mem_cons_of_mem _ listed))
      (fun answers lane max listed => pending answers lane max (List.mem_cons_of_mem _ listed)) before
      (queue ▸ entry)
    exact ⟨same.trans queue, grows.trans further, within⟩

end Solonpad.OrderScheduler

namespace Solonpad.Hub

open Checked Chain

variable {c : Config} {s after : State} {env : Env} {id : Nat} {routeFee dust : Nat}

/-! What a launch leaves queued. -/

theorem refundBuy_status (lane : (s.orders id).lane = 0) (done : refundBuy c s env id = .ok after) :
    (after.orders id).status = .cancelled := by
  simp only [refundBuy, bind_ok, removeOpen_ok, unescrow_ok, ite_ok, pure_ok] at done
  obtain ⟨_, ⟨opened, _, rfl⟩, _, ⟨_, rfl⟩, ⟨reward, _⟩ | ⟨_, rfl⟩⟩ := done
  · cases lane.symm.trans reward
  · obtain ⟨debt, own⟩ := pay_order (c := c) _ env 0 id _ _
    rw [own]
    simp only [Order.indebted, State.set, Function.update_self]

/-- A public order is funded or refunded. -/
theorem settlementLaunch_public {launched : Bool} (lane : (s.orders id).lane = 0)
    (done : Settlement.launch c s env id routeFee dust = .ok (after, launched)) :
    (after.orders id).status = .cancelled ∧ launched = false ∨ (after.orders id).status = .funded ∧ launched = true := by
  simp only [Settlement.launch, ite_ok, bind_ok, require_ok, pure_ok, unescrow_ok, Prod.mk.injEq] at done
  obtain ⟨_, _, fits, _, ⟨_, ⟨_, _, refunded, rfl, same⟩ | ⟨reward, _⟩⟩ |
    ⟨_, _, _, _, _, _, ⟨_, rfl⟩, _, _, rfl, same⟩⟩ := done
  · exact .inl ⟨refundBuy_status lane refunded, same.symm⟩
  · exact absurd lane reward
  · refine .inr ⟨?_, same.symm⟩
    simp only [State.deposit, State.set, Function.update_self]

/-- Only a reward order can be put off. -/
theorem launch_pending (done : launch c s env id routeFee dust = .ok after)
    (pending : (after.orders id).status = .pending) : (s.orders id).lane ≠ 0 := by
  intro lane
  simp only [launch, bind_ok, require_ok, Prod.exists, ite_ok, pure_ok] at done
  obtain ⟨_, _, _, _, _, _, _, _, middle, launched, moved, ⟨⟨rfl, _⟩, sent⟩ | ⟨_, rfl⟩⟩ := done
  · rcases settlementLaunch_public lane moved with ⟨_, no⟩ | ⟨funded, _⟩
    · cases no
    · simp only [dispatchFromReserve, bind_ok, require_ok, unescrow_ok] at sent
      obtain ⟨_, _, _, ⟨_, rfl⟩, sent⟩ := sent
      obtain ⟨balance, at_, rfl, _⟩ := dispatchOrder_ok _ _ _ _ _ _ _ sent
      simp only [State.set, Function.update_self, Order.told, funded, reduceCtorEq, if_false] at pending
  · rcases settlementLaunch_public lane moved with ⟨cancelled, _⟩ | ⟨funded, _⟩
    · cases cancelled.symm.trans pending
    · cases funded.symm.trans pending

/-- A reward order's launch asks the controller for nothing. -/
theorem launch_reward (lane : (s.orders id).lane ≠ 0) (done : launch c s env id routeFee dust = .ok after) :
    after.capacity.lRun = s.capacity.lRun := by
  simp only [launch, bind_ok, require_ok, Prod.exists, ite_ok, pure_ok] at done
  obtain ⟨_, _, _, _, _, _, _, _, middle, launched, moved, done⟩ := done
  have kept : middle.capacity.lRun = s.capacity.lRun ∧ (middle.orders id).lane ≠ 0 := by
    simp only [Settlement.launch, ite_ok, bind_ok, require_ok, pure_ok, unescrow_ok, onCapacity_ok,
      Prod.mk.injEq] at moved
    obtain ⟨_, _, fits, _, ⟨_, ⟨pub, _⟩ | ⟨_, rfl, _⟩⟩ |
      ⟨_, _, reserved, _, ⟨booked, marked, rfl⟩, _, ⟨_, rfl⟩, _, _, rfl, _⟩⟩ := moved
    · exact absurd pub lane
    · exact ⟨rfl, lane⟩
    · simp only [Capacity.markSent, bind_ok, require_ok, pure_ok] at marked
      obtain ⟨_, _, _, _, rfl⟩ := marked
      rcases reserved with ⟨pub, _⟩ | ⟨_, rfl⟩
      · exact absurd pub lane
      · refine ⟨rfl, ?_⟩
        simp only [State.deposit, State.set, Function.update_self]
        exact lane
  rcases done with ⟨⟨_, pub, _⟩, _⟩ | ⟨_, rfl⟩
  · exact absurd pub kept.2
  · exact kept.1

end Solonpad.Hub

namespace Solonpad.Venue

open Checked Chain Transition
open OrderScheduler (Lane Answers Inner scanLimit)

structure State where
  queue : OrderScheduler.State
  hub : Hub.State

variable (c : Hub.Config)

def deployed : State := ⟨OrderScheduler.deployed, Hub.deployed c⟩

/-- `scheduleInfo`, and `canReserve` of the public lane. -/
def State.answers (v : State) : Answers where
  pending id := decide ((v.hub.orders id).status = .pending ∧ (v.hub.orders id).kind = .buy)
  usd id := (v.hub.orders id).amountIn
  canReserve usd :=
    match Capacity.canReserve v.hub.capacity 0 usd with
    | .ok fits => fits
    | .error _ => false

/-- What the scheduler hears while the hub launches an order: that one is not queued any more. -/
def State.during (v : State) (id : Nat) : Answers :=
  { v.answers with pending := fun own => decide (own ≠ id) && v.answers.pending own }

/-- What the hub puts into the queues. -/
def enqueues (s : Hub.State) (call : Hub.Call) : List Inner :=
  match call.action with
  | .requestBuy .. => [.enqueue 0 s.orderCount]
  | .beginFunding .. => [.enqueue 1 s.orderCount]
  | _ => []

/-- A call of the hub by anyone but the scheduler, which only launches. -/
def hubCall (v : State) (call : Hub.Call) : Tx State := do
  require (call.env.sender ≠ c.scheduler) .notScheduler
  let hub ← Hub.step c v.hub call
  let queue ← relay .notScheduler (OrderScheduler.inners ⟨c.self⟩ v.queue (enqueues v.hub call))
  pure ⟨queue, hub⟩

/-- `_head` of the public lane, whose question to the controller may itself fail. -/
def checkHead (v : State) : Tx Unit :=
  match OrderScheduler.scan v.answers (v.queue.queue .pub) scanLimit (v.queue.head .pub) with
  | none => pure ()
  | some position => do
    let _ ← Capacity.canReserve v.hub.capacity 0 (v.answers.usd ((v.queue.queue .pub).getD position 0))
    pure ()

/-- While the hub launches anyone may skip closed entries; an order it only puts off is queued again. -/
def State.launchCalls (v : State) (id : Nat) (skips : List (Nat × Nat)) (hub : Hub.State) : List Inner :=
  skips.map (fun (lane, max) => .skipClosed (v.during id) lane max) ++
    if (hub.orders id).status = .pending then [.enqueue 1 id] else []

/-- `launchNext`, with the hub's launch inside. -/
def launchNext (v : State) (env : Hub.Env) (expectedId routeFee dust : Nat) (skips : List (Nat × Nat)) :
    Tx State := do
  checkHead v
  let hub := Hub.launch c v.hub { env with sender := c.scheduler } expectedId routeFee dust
  let calls := hub.toOption.map (v.launchCalls expectedId skips)
  let queue ← relay .notScheduler (OrderScheduler.launchNext ⟨c.self⟩ v.queue v.answers expectedId calls)
  let hub ← hub
  pure ⟨queue, hub⟩

inductive Action where
  | hub (call : Hub.Call)
  | launchNext (env : Hub.Env) (expectedId routeFee dust : Nat) (skips : List (Nat × Nat))
  | skipClosed (lane max : Nat)

def step (v : State) : Action → Tx State
  | .hub call => hubCall c v call
  | .launchNext env expectedId routeFee dust skips => launchNext c v env expectedId routeFee dust skips
  | .skipClosed lane max => .ok { v with queue := OrderScheduler.skipClosed v.queue v.answers lane max }

def accepts (v : State) (a : Action) (after : State) : Prop := step c v a = .ok after

/-! What is queued. -/

variable {c} {v after : State} {env : Hub.Env} {expectedId routeFee dust : Nat} {skips : List (Nat × Nat)}
  {a : Action} {queue : OrderScheduler.State} {hub next s : Hub.State} {underlying : Address}
  {calls : List Inner} {config : OrderScheduler.Config}

/-- The scheduler's calls of the hub are its launches. -/
theorem launchNext_ok (taken : launchNext c v env expectedId routeFee dust skips = .ok after) :
    Hub.step c v.hub ⟨{ env with sender := c.scheduler }, .launch expectedId routeFee dust⟩ = .ok after.hub ∧
      OrderScheduler.launchNext ⟨c.self⟩ v.queue v.answers expectedId
        (some (v.launchCalls expectedId skips after.hub)) = .ok after.queue := by
  simp only [launchNext, bind_ok, relay_ok, pure_ok] at taken
  obtain ⟨_, _, queue, scheduled, hub, launched, rfl⟩ := taken
  rw [launched] at scheduled
  exact ⟨launched, scheduled⟩

/-- A step of the venue leaves the hub or is a call of it. -/
theorem step_hub (taken : accepts c v a after) : after.hub = v.hub ∨ ∃ call, Hub.step c v.hub call = .ok after.hub := by
  cases a with
  | hub call =>
    simp only [accepts, step, hubCall, bind_ok, require_ok, relay_ok, pure_ok] at taken
    obtain ⟨_, _, hub, called, _, _, rfl⟩ := taken
    exact .inr ⟨call, called⟩
  | launchNext env expectedId routeFee dust skips => exact .inr ⟨_, (launchNext_ok taken).1⟩
  | skipClosed lane max =>
    cases taken
    exact .inl rfl

theorem hub_regular (reached : Reachable (accepts c) (deployed c) v) : Hub.Regular v.hub := by
  apply reached.invariant Hub.deployed_regular
  intro before a next regular taken
  rcases step_hub taken with same | ⟨call, called⟩
  · rw [same]
    exact regular
  · exact (Hub.step_moves before.hub next.hub call regular called).regular regular

def number : Lane → Nat
  | .pub => 0
  | .reward => 1

/-- The queues hold orders of their own lane. -/
def Filed (queue : OrderScheduler.State) (hub : Hub.State) : Prop :=
  ∀ lane id, id ∈ queue.queue lane → id < hub.orderCount ∧ (hub.orders id).lane = number lane

theorem Filed.later {call : Hub.Call} (filed : Filed queue hub) (regular : Hub.Regular hub)
    (called : Hub.step c hub call = .ok next) : Filed queue next := by
  intro lane id member
  obtain ⟨known, own⟩ := filed lane id member
  have moves := Hub.step_moves hub next call regular called
  have goes := moves.goes regular known
  exact ⟨Nat.lt_of_lt_of_le known moves.grows, (Hub.deal_spec goes.deal).2.2.2.2.1.trans own⟩

theorem placeBuy_lane {user : Address} {usdcIn minShares extra lane fee : Nat} {placed : Hub.Placed}
    (done : Hub.placeBuy s env user underlying usdcIn minShares extra lane fee = .ok placed) :
    placed.state.orderCount = s.orderCount + 1 ∧ (placed.state.orders s.orderCount).lane = lane := by
  simp only [Hub.placeBuy, bind_ok, pure_ok] at done
  obtain ⟨whole, _, rfl⟩ := done
  refine ⟨rfl, ?_⟩
  simp only [Hub.State.escrow, Hub.State.set, Function.update_self]

theorem beginReward_lane {key : Hub.CapKey} {receiver : Address} {budget minRaw path : Nat}
    (done : Hub.beginReward s env key underlying budget minRaw receiver path = .ok next) :
    next.orderCount = s.orderCount + 1 ∧ (next.orders s.orderCount).lane = 1 := by
  simp only [Hub.beginReward, bind_ok, require_ok, sub_ok, pure_ok] at done
  obtain ⟨_, _, _, _, _, _, placed, bought, rfl⟩ := done
  obtain ⟨count, lane⟩ := placeBuy_lane bought
  refine ⟨count, ?_⟩
  simp only [Hub.State.set, Function.update_self]
  exact lane

/-- What the hub puts into a queue is an order it just placed, of that queue's lane. -/
theorem enqueues_placed {call : Hub.Call} (called : Hub.step c s call = .ok next) {n id : Nat}
    (listed : Inner.enqueue n id ∈ enqueues s call) :
    id < next.orderCount ∧ (next.orders id).lane = number (OrderScheduler.laneOf n) := by
  obtain ⟨env, action⟩ := call
  cases action with
  | requestBuy underlying usdcIn minSharesOut =>
    simp only [enqueues, List.mem_singleton, Inner.enqueue.injEq] at listed
    obtain ⟨rfl, rfl⟩ := listed
    simp only [Hub.step, Hub.requestBuy, bind_ok, require_ok, pure_ok] at called
    obtain ⟨_, _, _, _, _, _, _, _, placed, bought, _, _, rfl⟩ := called
    obtain ⟨count, lane⟩ := placeBuy_lane bought
    exact ⟨count ▸ Nat.lt_succ_self _, lane⟩
  | beginFunding orderId underlying budget18 minRawOut receiver path =>
    simp only [enqueues, List.mem_singleton, Inner.enqueue.injEq] at listed
    obtain ⟨rfl, rfl⟩ := listed
    simp only [Hub.step, Hub.beginFunding, bind_ok, require_ok] at called
    obtain ⟨_, _, _, _, _, _, begun⟩ := called
    obtain ⟨count, lane⟩ := beginReward_lane begun
    have placed : s.orderCount < next.orderCount := by
      rw [count]
      exact Nat.lt_succ_self s.orderCount
    exact ⟨placed, lane⟩
  | _ => cases listed

/-- What an accepted launch takes from the queues. -/
theorem launchNext_takes {s next : OrderScheduler.State} {answers : Answers}
    (taken : OrderScheduler.launchNext config s answers expectedId (some calls) = .ok next) :
    ∃ lane position, OrderScheduler.Ready s answers lane ∧ expectedId ∈ s.queue lane ∧
      OrderScheduler.inners config (OrderScheduler.advance s lane position) calls = .ok next := by
  unfold OrderScheduler.launchNext at taken
  split at taken
  · simp only [throw_ok] at taken
  · next lane id chosen =>
    obtain ⟨ready, named, _⟩ := OrderScheduler.nextLaunch_some chosen
    obtain ⟨position, own, _, entry, head⟩ := OrderScheduler.headOf_ready ready
    simp only [bind_ok, require_ok] at taken
    obtain ⟨_, expected, ran⟩ := taken
    rw [head] at ran named
    have same : own = expectedId := named.trans expected
    exact ⟨lane, position, ready, same ▸ List.mem_of_getElem? entry, ran⟩

/-- What a call puts into the queues is of its lane, so the queues stay filed. -/
theorem Filed.adds {next : OrderScheduler.State} (filed : Filed queue hub)
    (ran : OrderScheduler.inners config queue calls = .ok next) (listed : ∀ n id, Inner.enqueue n id ∈ calls →
      id < hub.orderCount ∧ (hub.orders id).lane = number (OrderScheduler.laneOf n)) : Filed next hub := by
  intro lane id member
  rcases OrderScheduler.inners_entries ran member with earlier | ⟨n, added, same⟩
  · exact filed lane id earlier
  · exact same ▸ listed n id added

/-- A launch puts back only a reward order that is still queued. -/
theorem launchCalls_adds {id : Nat} {n own : Nat} (listed : Inner.enqueue n own ∈ v.launchCalls id skips hub) :
    n = 1 ∧ own = id ∧ (hub.orders id).status = .pending := by
  rw [State.launchCalls, List.mem_append] at listed
  rcases listed with skipped | added
  · obtain ⟨_, _, no⟩ := List.mem_map.mp skipped
    cases no
  · split at added
    · next pending =>
      cases List.mem_singleton.mp added
      exact ⟨rfl, rfl, pending⟩
    · cases added

theorem launchNext_filed (regular : Hub.Regular v.hub) (filed : Filed v.queue v.hub)
    (taken : launchNext c v env expectedId routeFee dust skips = .ok after) : Filed after.queue after.hub := by
  obtain ⟨called, scheduled⟩ := launchNext_ok taken
  obtain ⟨lane, position, _, member, ran⟩ := launchNext_takes scheduled
  have later := filed.later regular called
  have advanced : Filed (OrderScheduler.advance v.queue lane position) after.hub := later
  refine advanced.adds ran ?_
  intro n own listed
  obtain ⟨rfl, rfl, pending⟩ := launchCalls_adds listed
  obtain ⟨known, _⟩ := later lane own member
  have kept := (Hub.step_moves v.hub after.hub _ regular called).goes regular (filed lane own member).1
  refine ⟨known, ?_⟩
  -- a public order that was launched is funded or refunded
  have put : (v.hub.orders own).lane ≠ 0 := Hub.launch_pending called pending
  rw [(Hub.deal_spec kept.deal).2.2.2.2.1]
  exact ((regular.orders own).lanes.resolve_left put)

theorem step_filed (regular : Hub.Regular v.hub) (filed : Filed v.queue v.hub) (taken : accepts c v a after) :
    Filed after.queue after.hub := by
  cases a with
  | hub call =>
    simp only [accepts, step, hubCall, bind_ok, require_ok, relay_ok, pure_ok] at taken
    obtain ⟨_, _, hub, called, queue, added, rfl⟩ := taken
    exact (filed.later regular called).adds added fun n id listed => enqueues_placed called listed
  | launchNext env expectedId routeFee dust skips => exact launchNext_filed regular filed taken
  | skipClosed lane max =>
    cases taken
    exact filed

theorem reachable_filed (reached : Reachable (accepts c) (deployed c) v) : Filed v.queue v.hub := by
  have initially : Filed (deployed c).queue (deployed c).hub := fun _ _ member => absurd member List.not_mem_nil
  exact reached.invariant_under (fun _ => hub_regular) initially
    fun _ _ _ regular filed taken => step_filed regular filed taken

/-! A public head that does not fit. -/

/-- The order that the public lane's scan stops at is larger than the single-order limit. -/
structure Oversize (v : State) (position id : Nat) : Prop where
  found : OrderScheduler.scan v.answers (v.queue.queue .pub) scanLimit (v.queue.head .pub) = some position
  entry : (v.queue.queue .pub)[position]? = some id
  exceeds : v.hub.capacity.lRun < (v.hub.orders id).amountIn

variable {position id : Nat}

theorem Oversize.unready (oversize : Oversize v position id) : ¬ OrderScheduler.Ready v.queue v.answers .pub := by
  have named : (v.queue.queue .pub).getD position 0 = id := by
    rw [List.getD_eq_getElem?_getD, oversize.entry]
    rfl
  have refused : v.answers.canReserve (v.answers.usd id) = false := by
    have exceeds : v.hub.capacity.lRun < v.answers.usd id := oversize.exceeds
    have positive : v.answers.usd id ≠ 0 := Nat.ne_of_gt (Nat.zero_lt_of_lt exceeds)
    simp only [State.answers, Capacity.canReserve, Capacity.check] at exceeds positive ⊢
    simp only [if_neg positive, if_pos exceeds]
    rfl
  simp only [OrderScheduler.Ready, OrderScheduler.headOf, oversize.found, named, refused]
  decide

/-- So the scheduler launches from the reward lane, if at all. -/
theorem Oversize.reward (oversize : Oversize v position id)
    (taken : launchNext c v env expectedId routeFee dust skips = .ok after) :
    expectedId ∈ v.queue.queue .reward ∧ ∃ at', OrderScheduler.inners ⟨c.self⟩
      (OrderScheduler.advance v.queue .reward at') (v.launchCalls expectedId skips after.hub) = .ok after.queue := by
  obtain ⟨_, scheduled⟩ := launchNext_ok taken
  obtain ⟨lane, position, ready, member, ran⟩ := launchNext_takes scheduled
  cases lane with
  | pub => exact absurd ready oversize.unready
  | reward => exact ⟨member, position, ran⟩

/-- The public lane is left as it is, but for closed entries before a position. -/
structure Stays (v : State) (position : Nat) (after : State) : Prop where
  queue : after.queue.queue .pub = v.queue.queue .pub
  grows : v.queue.head .pub ≤ after.queue.head .pub
  within : after.queue.head .pub ≤ position
  orders : ∀ own ∈ v.queue.queue .pub, after.hub.orders own = v.hub.orders own
  limit : after.hub.capacity.lRun = v.hub.capacity.lRun

theorem Oversize.queued (oversize : Oversize v position id) :
    v.queue.head .pub ≤ position ∧ v.answers.pending id = true := by
  obtain ⟨low, ⟨own, entry, pending⟩, _⟩ := OrderScheduler.scan_found oversize.found
  cases entry.symm.trans oversize.entry
  exact ⟨low, pending⟩

theorem Oversize.kept (oversize : Oversize v position id) (stays : Stays v position after) :
    Oversize after position id := by
  have high := OrderScheduler.scan_bound oversize.found
  obtain ⟨_, _, closed⟩ := OrderScheduler.scan_found oversize.found
  have same : ∀ own ∈ v.queue.queue .pub, after.answers.pending own = v.answers.pending own := by
    intro own member
    simp only [State.answers, stays.orders own member]
  have member : id ∈ v.queue.queue .pub := List.mem_of_getElem? oversize.entry
  have grows := stays.grows
  refine ⟨?_, stays.queue ▸ oversize.entry, ?_⟩
  · rw [stays.queue]
    refine OrderScheduler.scan_stops stays.within (by omega) oversize.entry ?_ ?_
    · exact (same id member).trans oversize.queued.2
    · intro i low before
      obtain ⟨own, entry, ended⟩ := closed i (grows.trans low) before
      exact ⟨own, entry, (same own (List.mem_of_getElem? entry)).trans ended⟩
  · rw [stays.limit, stays.orders id member]
    exact oversize.exceeds

/-- Calls of the scheduler: launches and skips. -/
def Action.Scheduling : Action → Prop
  | .hub _ => False
  | .launchNext .. | .skipClosed .. => True

theorem launchNext_stays (filed : Filed v.queue v.hub) (oversize : Oversize v position id)
    (taken : launchNext c v env expectedId routeFee dust skips = .ok after) : Stays v position after := by
  obtain ⟨called, _⟩ := launchNext_ok taken
  obtain ⟨member, at', ran⟩ := oversize.reward taken
  have reward : (v.hub.orders expectedId).lane = 1 := (filed .reward expectedId member).2
  have apart : ∀ own ∈ v.queue.queue .pub, own ≠ expectedId := by
    rintro own pub rfl
    have lane : (v.hub.orders own).lane = 0 := (filed .pub own pub).2
    omega
  have head : (OrderScheduler.advance v.queue .reward at').head .pub = v.queue.head .pub := by
    simp [OrderScheduler.advance]
  obtain ⟨low, pending⟩ := oversize.queued
  obtain ⟨queue, grows, within⟩ := OrderScheduler.inners_public ran
    (by
      intro n own listed
      rw [(launchCalls_adds listed).1]
      decide)
    (by
      intro answers lane max listed
      rw [State.launchCalls, List.mem_append] at listed
      rcases listed with skipped | added
      · obtain ⟨_, _, same⟩ := List.mem_map.mp skipped
        cases same
        simp only [State.during, apart id (List.mem_of_getElem? oversize.entry), pending, ne_eq, not_false_eq_true,
          decide_true, Bool.and_self]
      · split at added <;> simp at added)
    (head ▸ low) oversize.entry
  refine ⟨queue, head ▸ grows, within, ?_, Hub.launch_reward (by omega) called⟩
  intro own pub
  exact Hub.step_elsewhere called own (apart own pub)

theorem scheduling_stays (filed : Filed v.queue v.hub) (oversize : Oversize v position id)
    (scheduling : a.Scheduling) (taken : accepts c v a after) : Stays v position after := by
  cases a with
  | hub call => cases scheduling
  | launchNext env expectedId routeFee dust skips => exact launchNext_stays filed oversize taken
  | skipClosed lane max =>
    cases taken
    obtain ⟨low, pending⟩ := oversize.queued
    by_cases pub : OrderScheduler.laneOf lane = .pub
    · refine ⟨rfl, ?_, ?_, fun _ _ => rfl, rfl⟩
      · simp only [OrderScheduler.skipClosed, pub, Function.update_self]
        exact (OrderScheduler.skip_closed _ _ _ _).1
      · simp only [OrderScheduler.skipClosed, pub, Function.update_self]
        exact OrderScheduler.skip_stops low oversize.entry pending
    · have kept : (OrderScheduler.skipClosed v.queue v.answers lane max).head .pub = v.queue.head .pub :=
        Function.update_of_ne (Ne.symm pub) ..
      exact ⟨rfl, Nat.le_of_eq kept.symm, kept.symm ▸ low, fun _ _ => rfl, rfl⟩

/-- Behind a public head that is larger than the limit no launch refunds it or moves past it, and however often
the scheduler is called the public lane stays as it is. -/
theorem oversize_head_blocks (c : Hub.Config) (v : State) (reached : Reachable (accepts c) (deployed c) v)
    (position id : Nat) (oversize : Oversize v position id) :
    (¬ ∃ env expectedId routeFee dust skips after, launchNext c v env expectedId routeFee dust skips = .ok after ∧
      (after.hub.orders id).status = .cancelled ∧ position < after.queue.head .pub) ∧
    ∀ w, Reachable (restrict (accepts c) fun _ a => a.Scheduling) v w →
      Oversize w position id ∧ w.queue.head .pub ≤ position ∧
        ∀ own ∈ v.queue.queue .pub, w.hub.orders own = v.hub.orders own := by
  have filed := reachable_filed reached
  constructor
  · rintro ⟨env, expectedId, routeFee, dust, skips, after, taken, _, past⟩
    exact absurd (launchNext_stays filed oversize taken).within (Nat.not_le.mpr past)
  · intro w run
    have all : Reachable (accepts c) (deployed c) w ∧ Oversize w position id ∧
        w.queue.queue .pub = v.queue.queue .pub ∧ w.queue.head .pub ≤ position ∧
        ∀ own ∈ v.queue.queue .pub, w.hub.orders own = v.hub.orders own := by
      induction run with
      | start => exact ⟨reached, oversize, rfl, oversize.queued.1, fun _ _ => rfl⟩
      | next _ taken ih =>
        obtain ⟨earlier, blocked, queue, _, orders⟩ := ih
        have stays := scheduling_stays (reachable_filed earlier) blocked taken.1 taken.2
        refine ⟨.next earlier taken.2, blocked.kept stays, stays.queue.trans queue, stays.within, ?_⟩
        intro own member
        rw [stays.orders own (queue ▸ member), orders own member]
    exact ⟨all.2.1, all.2.2.2.1, all.2.2.2.2⟩

/-- Two buys are queued, the first larger than the limit that the owner then lowers. -/
def loweredAfter : List Action :=
  [.hub (Hub.by' 2 0 (.listStock 50 30 (10 ^ 20) 60 1)),
    .hub (Hub.by' 12 (32 * 10 ^ 18) (.requestBuy 50 (30 * 10 ^ 18) 1)),
    .hub (Hub.by' 13 (26 * 10 ^ 18) (.requestBuy 50 (24 * 10 ^ 18) 1)),
    .hub (Hub.by' 2 0 (.capacity (.lowerLimits (25 * 10 ^ 18) (25 * 10 ^ 20) (25 * 10 ^ 20))))]

/-- The first order is the head and too large; the second one is next and fits. -/
def headTooLarge (v : State) : Bool :=
  decide (OrderScheduler.scan v.answers (v.queue.queue .pub) scanLimit (v.queue.head .pub) = some 0 ∧
    v.queue.queue .pub = [0, 1] ∧ v.hub.capacity.lRun < (v.hub.orders 0).amountIn ∧
    v.answers.pending 1 = true ∧ v.answers.canReserve (v.answers.usd 1) = true ∧
    OrderScheduler.nextLaunch v.queue v.answers = none)

theorem oversize_head_blocks_lowered : ∃ v, Reachable (accepts Hub.sample) (deployed Hub.sample) v ∧
    Oversize v 0 0 ∧ ∀ w, Reachable (restrict (accepts Hub.sample) fun _ a => a.Scheduling) v w →
      w.queue.head .pub ≤ 0 ∧ w.hub.orders 1 = v.hub.orders 1 := by
  obtain ⟨v, reached, passed⟩ := run_passes (step Hub.sample) (fun _ _ => True) loweredAfter
    (deployed Hub.sample) headTooLarge (by decide)
  obtain ⟨found, queue, exceeds, _⟩ := of_decide_eq_true passed
  have oversize : Oversize v 0 0 := ⟨found, by rw [queue]; rfl, exceeds⟩
  have law := (oversize_head_blocks Hub.sample v reached.unrestricted 0 0 oversize).2
  refine ⟨v, reached.unrestricted, oversize, ?_⟩
  intro w run
  obtain ⟨_, within, orders⟩ := law w run
  exact ⟨within, orders 1 (by rw [queue]; decide)⟩

/-- The second order fits, and no launch is accepted. -/
theorem fitting_order_waits : ∃ v, Reachable (accepts Hub.sample) (deployed Hub.sample) v ∧
    Oversize v 0 0 ∧ v.queue.queue .pub = [0, 1] ∧ v.answers.pending 1 = true ∧
    v.answers.canReserve (v.answers.usd 1) = true ∧
    ∀ env expectedId routeFee dust skips after,
      launchNext Hub.sample v env expectedId routeFee dust skips ≠ .ok after := by
  obtain ⟨v, reached, passed⟩ := run_passes (step Hub.sample) (fun _ _ => True) loweredAfter
    (deployed Hub.sample) headTooLarge (by decide)
  obtain ⟨found, queue, exceeds, pending, fits, none⟩ := of_decide_eq_true passed
  refine ⟨v, reached.unrestricted, ⟨found, by rw [queue]; rfl, exceeds⟩, queue, pending, fits, ?_⟩
  intro env expectedId routeFee dust skips after taken
  have scheduled := (launchNext_ok taken).2
  simp only [OrderScheduler.launchNext, none, throw_ok] at scheduled

end Solonpad.Venue
