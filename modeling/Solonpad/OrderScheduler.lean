import Solonpad.Chain
import Solonpad.Histories

/-!
`OrderScheduler.sol`: two queues, from which anyone may launch the order that is next. What the hub
and the capacity controller answer is part of a call's environment. The hub's launch may fail, and
with it the call; while it runs, the hub enqueues and anyone may skip closed entries. A nested launch
finds the hub locked and fails, so it leaves nothing.
-/

namespace Solonpad.OrderScheduler

open Checked
open Chain (Address)

inductive SchedulerError where
  | notHub | notNext | badLane | launchFailed
  deriving DecidableEq, Repr

abbrev Tx (α : Type) := Checked.Tx SchedulerError α

inductive Lane where
  | pub | reward
  deriving DecidableEq, Repr

structure State where
  queue : Lane → List Nat
  head : Lane → Nat
  /-- Public launches since the last reward launch, as long as eight bits hold them. -/
  publicStreak : Nat

/-- `scheduleInfo` and `canReserve`, which only the public lane asks. -/
structure Answers where
  pending : Nat → Bool
  usd : Nat → Nat
  canReserve : Nat → Bool

structure Config where
  hub : Address

def deployed : State := ⟨fun _ => [], fun _ => 0, 0⟩

def publicPerReward : Nat := 3

def scanLimit : Nat := 64

variable (c : Config)

/-- 0 is the public lane, any other the reward lane. -/
def laneOf (lane : Nat) : Lane := if lane = 0 then .pub else .reward

def enqueue (s : State) (sender : Address) (lane id : Nat) : Tx State := do
  require (sender = c.hub) .notHub
  require (lane ≤ 1) .badLane
  pure { s with queue := Function.update s.queue (laneOf lane) (s.queue (laneOf lane) ++ [id]) }

/-- The first pending entry from a position on, within so many entries. -/
def scan (answers : Answers) (queue : List Nat) : Nat → Nat → Option Nat
  | 0, _ => none
  | n + 1, h =>
    match queue[h]? with
    | none => none
    | some id => if answers.pending id = true then some h else scan answers queue n (h + 1)

/-- Whether a lane's head is ready, its id and its position: `_head`. -/
def headOf (s : State) (answers : Answers) (lane : Lane) : Bool × Nat × Nat :=
  match scan answers (s.queue lane) scanLimit (s.head lane) with
  | none => (false, 0, 0)
  | some position =>
    let id := (s.queue lane).getD position 0
    (decide (lane = .reward) || answers.canReserve (answers.usd id), id, position)

def nextLaunch (s : State) (answers : Answers) : Option (Lane × Nat) :=
  let (p, pid, _) := headOf s answers .pub
  let (r, rid, _) := headOf s answers .reward
  let rewardTurn := decide (publicPerReward ≤ s.publicStreak)
  if (if rewardTurn = true then r else !p && r) = true then some (.reward, rid)
  else if p = true then some (.pub, pid)
  else none

/-- What `launchNext` stores before it calls the hub. -/
def advance (s : State) (lane : Lane) (position : Nat) : State where
  queue := s.queue
  head := Function.update s.head lane (position + 1)
  publicStreak :=
    match lane with
    | .pub => if s.publicStreak < 255 then s.publicStreak + 1 else s.publicStreak
    | .reward => 0

/-- The head after skipping at most so many closed entries. -/
def skip (answers : Answers) (queue : List Nat) : Nat → Nat → Nat
  | 0, h => h
  | n + 1, h =>
    match queue[h]? with
    | none => h
    | some id => if answers.pending id = true then h else skip answers queue n (h + 1)

def skipClosed (s : State) (answers : Answers) (lane max : Nat) : State :=
  let l := laneOf lane
  { s with head := Function.update s.head l (skip answers (s.queue l) max (s.head l)) }

/-- What happens while the hub launches. -/
inductive Inner where
  | enqueue (lane id : Nat)
  | skipClosed (answers : Answers) (lane max : Nat)

def inner (s : State) : Inner → Tx State
  | .enqueue lane id => enqueue c s c.hub lane id
  | .skipClosed answers lane max => .ok (skipClosed s answers lane max)

def inners (s : State) : List Inner → Tx State
  | [] => .ok s
  | call :: rest => do
    let s ← inner c s call
    inners s rest

/-- `launch` is none where the hub's launch fails. -/
def launchNext (s : State) (answers : Answers) (expectedId : Nat) (launch : Option (List Inner)) :
    Tx State :=
  match nextLaunch s answers with
  | none => throw (.revert .notNext)
  | some (lane, id) => do
    require (id = expectedId) .notNext
    let (_, _, position) := headOf s answers lane
    match launch with
    | none => throw (.revert .launchFailed)
    | some calls => inners c (advance s lane position) calls

/-! Steps. -/

inductive Action where
  | enqueue (sender : Address) (lane id : Nat)
  | launchNext (expectedId : Nat) (launch : Option (List Inner))
  | skipClosed (lane max : Nat)

structure Step where
  answers : Answers
  action : Action

def step (s : State) (t : Step) : Tx State :=
  match t.action with
  | .enqueue sender lane id => enqueue c s sender lane id
  | .launchNext expectedId launch => launchNext c s t.answers expectedId launch
  | .skipClosed lane max => .ok (skipClosed s t.answers lane max)

/-- A call, which leaves no trace where it fails. -/
def outcome (s : State) (t : Step) : State :=
  match step c s t with
  | .ok after => after
  | .error _ => s

/-- The lane and position that a call launches. -/
def launched (s : State) (t : Step) : Option (Lane × Nat) :=
  match t.action, step c s t with
  | .launchNext _ _, .ok _ => (nextLaunch s t.answers).map fun (lane, _) => (lane, (headOf s t.answers lane).2.2)
  | _, _ => none

end Solonpad.OrderScheduler
