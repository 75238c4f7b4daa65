import Solonpad.HubOrders
import Solonpad.SentTasks
import Solonpad.Transition

/-!
`launcher/keeper.mjs` beside the hub's orders. A tick reconciles what was sent, launches the orders the scheduler
names one after another, then asks Relay about every launch it remembers. A stage is a point between two awaits or
journal writes; a transaction lands at any time after it is sent, and a crash leaves the journal as it is. The plan
of a route fee is Relay's answer to the quotes; alerts, the check of the deposit and the watch of the queue, which
write no record, are left out, and so are a record's amounts and times.
-/

namespace Solonpad.Launcher

open Checked SentTasks Transition
open Hub (Order)

abbrev Id := Nat

structure Config where
  maxPerTick : Nat

inductive Fill where
  | success
  | failure
  | refund
  | abandoned
  deriving DecidableEq, Repr

/-- A record of `launches`. -/
structure Record where
  orderId : Option Nat
  relayRequestId : Option Nat
  /-- It has a `launchedAt`. -/
  launched : Bool
  fill : Option Fill
  failures : Nat
  deriving DecidableEq, Repr

def Record.blank : Record := ⟨none, none, false, none, 0⟩

/-- What `plan` brings for an order: Relay's order and, where it gave one, the id of the request. -/
structure Plan where
  orderId : Nat
  relayRequestId : Option Nat
  deriving DecidableEq, Repr

inductive Stage where
  | idle
  | reconciling
  /-- Before the `n`-th launch of the tick. -/
  | launching (n : Nat)
  | opening (id : Id) (n : Nat)
  | planning (id : Id) (n : Nat)
  | sending (id : Id) (orderId n : Nat)
  /-- The launch is confirmed and not recorded. -/
  | launched (id : Id) (orderId n : Nat)
  | dispatching (id : Id) (n : Nat)
  | dispatched (id : Id) (n : Nat)
  | queue
  | watching (rest : List Id)
  | done
  deriving DecidableEq, Repr

structure State where
  records : Id → Record
  entries : List Id
  tasks : Id → Nat → Sent Unit
  stage : Stage
  orders : Id → Order
  /-- The launches that have succeeded, and how many of them had when this tick began. -/
  landed : List (Id × Nat)
  begun : Nat
  /-- The orders whose dispatch was attempted. -/
  attempted : List Id
  /-- The launches whose fill this tick has asked for. -/
  asked : List Id

def deployed (orders : Id → Order) : State where
  records := fun _ => Record.blank
  entries := []
  tasks := fun _ _ => .unsent
  stage := .idle
  orders := orders
  landed := []
  begun := 0
  attempted := []
  asked := []

inductive Blocked where
  | blocked
  deriving DecidableEq, Repr

abbrev Tx (α : Type) := Checked.Tx Blocked α

/-! What the hub does with an order. -/

/-- `SolonStockHub.launch` succeeds on a pending buy: its principal leaves, maybe with the dispatch at once; or a
public order is refunded and a reward order queued again. -/
structure Launches (o next : Order) : Prop where
  pending : o.status = .pending
  buy : o.kind = .buy
  lane : next.lane = o.lane
  left : next.status = .funded ∨ next.status = .dispatched ∨ next.status = .cancelled ∧ o.lane = 0 ∨
    next.status = .pending ∧ o.lane ≠ 0

instance (o next : Order) : Decidable (Launches o next) :=
  decidable_of_iff (o.status = .pending ∧ o.kind = .buy ∧ next.lane = o.lane ∧
      (next.status = .funded ∨ next.status = .dispatched ∨ next.status = .cancelled ∧ o.lane = 0 ∨
        next.status = .pending ∧ o.lane ≠ 0))
    ⟨fun ⟨pending, buy, lane, left⟩ => ⟨pending, buy, lane, left⟩,
      fun ⟨pending, buy, lane, left⟩ => ⟨pending, buy, lane, left⟩⟩

/-- Anything else: an order that has left is not pending again, and only a launch funds one. -/
structure Goes (o next : Order) : Prop where
  lane : next.lane = o.lane
  left : o.status ≠ .pending → next.status ≠ .pending
  funded : next.status = .funded → o.status = .funded ∨ o.status = .pending

instance (o next : Order) : Decidable (Goes o next) :=
  decidable_of_iff (next.lane = o.lane ∧ (o.status ≠ .pending → next.status ≠ .pending) ∧
      (next.status = .funded → o.status = .funded ∨ o.status = .pending))
    ⟨fun ⟨lane, left, funded⟩ => ⟨lane, left, funded⟩,
      fun ⟨lane, left, funded⟩ => ⟨lane, left, funded⟩⟩

inductive Action where
  | tick
  /-- `reconcileAll` finds a launch mined with success. -/
  | reconciled (id : Id) (orderId : Nat)
  | reconciledAll
  /-- `nextLaunch`. -/
  | next (found : Option Id)
  /-- The next read of an order. -/
  | look
  | planned (plan : Option Plan)
  /-- The sender signs and journals the launch the keeper waits for. -/
  | submit
  | answered (confirmed : Bool)
  /-- The dispatch is sent. -/
  | dispatch
  | watchQueue
  /-- Relay's status of the next launch of the watch: an end, or none yet. -/
  | status (fill : Option Fill)
  /-- The tick throws or the process ends. -/
  | crash
  | mine (id : Id) (orderId : Nat) (next : Order)
  /-- The launch can no longer succeed, and the sender has counted it as failed. -/
  | drop (id : Id) (orderId : Nat)
  | hub (id : Id) (next : Order)

variable (c : Config)

def State.setRecord (s : State) (id : Id) (record : Record) : State :=
  { s with
    records := Function.update s.records id record
    entries := if id ∈ s.entries then s.entries else s.entries ++ [id] }

def State.setTask (s : State) (id : Id) (orderId : Nat) (task : Sent Unit) : State :=
  { s with tasks := Function.update s.tasks id (Function.update (s.tasks id) orderId task) }

/-- `failed`, after which the tick launches no more. -/
def failed (s : State) (id : Id) : State :=
  let rec_ := s.records id
  { s.setRecord id { rec_ with failures := rec_.failures + 1 } with stage := .queue }

/-- The fill is still asked for. -/
def Record.watchable (record : Record) : Prop :=
  record.launched = true ∧ record.fill ≠ some .success ∧ record.fill ≠ some .abandoned ∧
    record.relayRequestId ≠ none

instance (record : Record) : Decidable record.watchable := inferInstanceAs (Decidable (_ ∧ _))

def look (s : State) : Tx State :=
  match s.stage with
  | .opening id n => pure { s with stage := if (s.orders id).status = .pending then .planning id n else .queue }
  | .launched id _ n =>
    let after := s.orders id
    pure { s.setRecord id { s.records id with launched := true, failures := 0 } with
      stage := if after.status = .funded ∧ after.lane = 0 then .dispatching id n else .launching (n + 1) }
  | _ => throw (.revert .blocked)

def step (s : State) : Action → Tx State
  | .tick => do
    require (s.stage = .idle ∨ s.stage = .done) .blocked
    pure { s with stage := .reconciling, begun := s.landed.length, asked := [] }
  | .reconciled id orderId => do
    require (s.stage = .reconciling) .blocked
    match s.tasks id orderId with
    | .sent _ true => pure (s.setTask id orderId (.confirmed ()))
    | _ => throw (.revert .blocked)
  | .reconciledAll => do
    require (s.stage = .reconciling) .blocked
    pure { s with stage := .launching 0 }
  | .next found =>
    match s.stage with
    | .launching n =>
      match found with
      | none => pure { s with stage := .queue }
      | some id => pure { s with stage := if n < c.maxPerTick then .opening id n else .queue }
    | _ => throw (.revert .blocked)
  | .look => look s
  | .planned plan =>
    match s.stage with
    | .planning id n =>
      match plan with
      | none => pure (failed s id)
      | some plan =>
        -- durable intent before the send; the rest of an earlier record stays
        pure { s.setRecord id { s.records id with
            orderId := some plan.orderId, relayRequestId := plan.relayRequestId } with
          stage := .sending id plan.orderId n }
    | _ => throw (.revert .blocked)
  | .submit =>
    match s.stage with
    | .sending id orderId _ => do
      require (s.tasks id orderId = .unsent) .blocked
      pure (s.setTask id orderId (.sent () false))
    | _ => throw (.revert .blocked)
  | .answered confirmed =>
    match s.stage with
    | .sending id orderId n =>
      if confirmed = true then do
        require ((s.tasks id orderId).landed = some ()) .blocked
        pure { s.setTask id orderId (.confirmed ()) with stage := .launched id orderId n }
      else pure (failed s id)
    | .dispatched _ n => pure { s with stage := .launching (n + 1) }
    | _ => throw (.revert .blocked)
  | .dispatch =>
    match s.stage with
    | .dispatching id n => pure { s with attempted := s.attempted ++ [id], stage := .dispatched id n }
    | _ => throw (.revert .blocked)
  | .watchQueue => do
    require (s.stage = .queue) .blocked
    pure { s with stage := .watching s.entries }
  | .status fill =>
    match s.stage with
    | .watching [] => pure { s with stage := .done }
    | .watching (id :: rest) =>
      if (s.records id).watchable then
        match fill with
        | none => pure { s with asked := s.asked ++ [id], stage := .watching rest }
        | some fill => do
          require (fill ≠ .abandoned) .blocked
          pure { s.setRecord id { s.records id with fill := some fill } with
            asked := s.asked ++ [id], stage := .watching rest }
      else pure { s with stage := .watching rest }
    | _ => throw (.revert .blocked)
  | .crash => pure { s with stage := .idle }
  | .mine id orderId next =>
    match s.tasks id orderId with
    | .sent _ false => do
      require (Launches (s.orders id) next) .blocked
      pure { s.setTask id orderId (.sent () true) with
        orders := Function.update s.orders id next, landed := s.landed ++ [(id, orderId)] }
    | _ => throw (.revert .blocked)
  | .drop id orderId =>
    match s.tasks id orderId with
    | .sent _ false => pure (s.setTask id orderId .unsent)
    | _ => throw (.revert .blocked)
  | .hub id next => do
    require (Goes (s.orders id) next) .blocked
    pure { s with orders := Function.update s.orders id next }

def accepts (s : State) (action : Action) (after : State) : Prop := step c s action = .ok after

end Solonpad.Launcher
